import PlcTags.Container.Entry
import PlcTags.Container.Error
import PlcTags.Markup.Node

/-!
# PLCopen documents

The Beckhoff exchange document.  Tags are written as the interface of one program, a
list of variables for each run of tags with the same scope; every list of variables in a
document is read, but none inside of another.
-/

namespace PlcTags.Container.Plcopen

open Markup (Content Element Node)

/-! ## Writing -/

def listName : Scope → String
  | .input => "inputVars"
  | .output => "outputVars"
  | .local => "localVars"
  | .global => "globalVars"

/-- The types that are elements of their own. -/
def elementaryTypes : List String := ["BOOL", "INT", "DINT", "REAL"]

def typeNode (typeName : String) : Node :=
  if typeName.toLower = "string" then .empty "string" []
  else if elementaryTypes.contains typeName then .empty typeName []
  else .empty "derived" [("name", typeName)]

def defaultNodes (tag : Tag) : List Node :=
  if tag.defaultValue.isEmpty then []
  else [.branch "initialValue" [] [.empty "simpleValue" [("value", tag.defaultValue)]]]

def documentationNodes (tag : Tag) : List Node :=
  if tag.description.isEmpty then []
  else
    [.branch "documentation" []
      [.leaf "xhtml" [("xmlns", "http://www.w3.org/1999/xhtml")] (.cdata tag.description)]]

def variableNode (vendor : Vendor) (tag : Tag) : Node :=
  let address := vendor.containerAddress tag.address
  .branch "variable"
    (("name", tag.name) :: if address.isEmpty then [] else [("address", address)])
    (.branch "type" [] [typeNode (vendor.typeName tag.dataType)] ::
      defaultNodes tag ++ documentationNodes tag)

/-- The tags in runs of the same scope. -/
def runs : List Tag → List (Scope × List Tag)
  | [] => []
  | tag :: tags =>
    match runs tags with
    | (scope, run) :: rest =>
      if tag.scope = scope then (scope, tag :: run) :: rest
      else (tag.scope, [tag]) :: (scope, run) :: rest
    | [] => [(tag.scope, [tag])]

def listNode (vendor : Vendor) (run : Scope × List Tag) : Node :=
  .branch (listName run.1) [] (run.2.map (variableNode vendor))

def languageNode (language : String) : Node :=
  .branch language [] [.empty "scaling" [("x", "1"), ("y", "1")]]

/-- The document of some tags, created at `date` by this version of the product. -/
def document (date : String) (vendor : Vendor) (tags : List Tag) : Node :=
  .branch "project" [("xmlns", "http://www.plcopen.org/xml/tc6_0200")]
    [.empty "fileHeader"
      [("companyName", "tagsync"), ("productName", "tagsync"), ("productVersion", "0.1.0"),
        ("creationDateTime", date)],
      .branch "contentHeader" [("name", "Tags")]
        [.branch "coordinateInfo" [] (["fbd", "ld", "sfc"].map languageNode)],
      .branch "types" []
        [.empty "dataTypes" [],
          .branch "pous" []
            [.branch "pou" [("name", "Tags"), ("pouType", "program")]
              [.branch "interface" [] ((runs tags).map (listNode vendor))]]],
      .branch "instances" [] [.empty "configurations" []]]

def encode (date : String) (vendor : Vendor) (tags : List Tag) : String :=
  Markup.renderDocument false (document date vendor tags)

/-! ## Reading -/

/-- The scope of a list of variables, if an element is one. -/
def listScope? (name : String) : Option Scope :=
  match name with
  | "inputVars" => some .input
  | "outputVars" => some .output
  | "localVars" | "tempVars" | "inOutVars" => some .local
  | "globalVars" | "externalVars" => some .global
  | _ => none

/-- The type that the child of a `type` element names. -/
def typeNameOf (element : Element) : String :=
  match element.name with
  | "derived" => (element.attribute? "name").getD ""
  | "string" | "wstring" => "STRING"
  | name => name.toUpper

def defaultOf (declared : Element) : String :=
  (do
    let initial ← declared.child? "initialValue"
    let value ← initial.child? "simpleValue"
    value.attribute? "value").getD ""

def descriptionOf (declared : Element) : String :=
  match declared.child? "documentation" with
  | none => ""
  | some documentation =>
    Text.trimmed ((documentation.child? "xhtml").getD documentation).text

/-- The entry of the variable of number `index` in a list. -/
def entryOf (path : String) (scope : Scope) (index : Nat) (declared : Element) :
    Except Error Entry :=
  let location : Location := .element (path ++ "/variable[" ++ toString (index + 1) ++ "]")
  match declared.attribute? "name" with
  | none => .error ⟨location, .incomplete "variable" "name"⟩
  | some name =>
    match (declared.child? "type").bind (·.children.head?) with
    | none => .error ⟨location, .incomplete "variable" "type"⟩
    | some typeElement =>
      .ok
        { name
          typeName := typeNameOf typeElement
          address := (declared.attribute? "address").getD ""
          scope := scope.word
          defaultValue := defaultOf declared
          description := descriptionOf declared
          line := none }

def entriesOf (path : String) (scope : Scope) (list : Element) : Except Error (List Entry) :=
  ((list.childrenNamed "variable").zipIdx).mapM fun (declared, index) =>
    entryOf path scope index declared

mutual

/-- The entries of all lists inside of an element. -/
def entriesIn (path : String) : Element → Except Error (List Entry)
  | ⟨_, _, children, _⟩ => entriesAt path 1 children

/-- The same among `children`, of which the first is child number `index`. -/
def entriesAt (path : String) (index : Nat) : List Element → Except Error (List Entry)
  | [] => .ok []
  | child :: rest => do
    let childPath := path ++ "/" ++ child.name ++ "[" ++ toString index ++ "]"
    let found ← match listScope? child.name with
      | some scope => entriesOf childPath scope child
      | none => entriesIn childPath child
    let more ← entriesAt path (index + 1) rest
    return found ++ more

end

/-- The entries of a document. -/
def entries (root : Element) : Except Error (List Entry) :=
  if root.name ≠ "project" then
    .error ⟨.element root.name, .unexpectedRoot "PLCopen <project>"⟩
  else entriesIn "project" root

end PlcTags.Container.Plcopen
