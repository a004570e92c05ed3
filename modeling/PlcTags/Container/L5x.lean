import PlcTags.Container.Entry
import PlcTags.Container.Error
import PlcTags.Markup.Node

/-!
# L5X documents

The Rockwell tag document.  Tags of the controller stand under `Controller/Tags`, and
tags of programs, which are only read, under `Programs/Program/Tags`.  A tag with an
address is an alias for it.
-/

namespace PlcTags.Container.L5x

open Markup (Content Element Node)

def rootName : String := "RSLogix5000Content"

/-! ## Writing -/

def descriptionNodes (tag : Tag) : List Node :=
  if tag.description.isEmpty then []
  else [.leaf "Description" [] (.cdata tag.description)]

def dataNodes (typeName : String) (tag : Tag) : List Node :=
  if tag.defaultValue.isEmpty then []
  else
    [.branch "Data" [("Format", "Decorated")]
      [.empty "DataValue" [("DataType", typeName), ("Value", tag.defaultValue)]]]

def tagNode (vendor : Vendor) (tag : Tag) : Node :=
  let typeName := vendor.typeName tag.dataType
  let address := vendor.containerAddress tag.address
  .branch "Tag"
    ([("Name", tag.name)] ++
      (if address.isEmpty then [("TagType", "Base")]
        else [("TagType", "Alias"), ("AliasFor", address)]) ++
      [("DataType", typeName), ("Usage", vendor.scopeWord tag.scope),
        ("ExternalAccess", "Read/Write")])
    (descriptionNodes tag ++ dataNodes typeName tag)

/-- The document of some tags, exported at `date`. -/
def document (date : String) (vendor : Vendor) (tags : List Tag) : Node :=
  .branch rootName
    [("SchemaRevision", "1.0"), ("SoftwareRevision", "32.00"), ("TargetName", "Tags"),
      ("TargetType", "Controller"), ("ContainsContext", "true"), ("ExportDate", date),
      ("ExportOptions", "References NoRawData L5KData DecoratedData")]
    [.branch "Controller" [("Use", "Context"), ("Name", "Tags")]
      [.branch "Tags" [("Use", "Context")] (tags.map (tagNode vendor))]]

def encode (date : String) (vendor : Vendor) (tags : List Tag) : String :=
  Markup.renderDocument true (document date vendor tags)

/-! ## Reading -/

/-- The default of a tag: the value of its decorated data. -/
def defaultOf (tag : Element) : String :=
  (do
    let data ← (tag.childrenNamed "Data").find? fun data : Element =>
      data.attribute? "Format" == some "Decorated"
    let value ← data.child? "DataValue"
    value.attribute? "Value").getD ""

/-- The address of a tag, if it is an alias. -/
def addressOf (tag : Element) : String :=
  if (tag.attribute? "TagType").any (·.toLower == "alias") then
    (tag.attribute? "AliasFor").getD ""
  else ""

def entryOf (path defaultUsage : String) (index : Nat) (tag : Element) : Except Error Entry :=
  match tag.attribute? "Name" with
  | none =>
    .error ⟨.element (path ++ "/Tag[" ++ toString (index + 1) ++ "]"), .incomplete "tag" "Name"⟩
  | some name =>
    .ok
      { name
        typeName := (tag.attribute? "DataType").getD ""
        address := addressOf tag
        scope := (tag.attribute? "Usage").getD defaultUsage
        defaultValue := defaultOf tag
        description :=
          ((tag.child? "Description").map fun text => Text.trimmed text.text).getD ""
        line := none }

/-- The entries of the tags in one place of the document. -/
def entriesOf (path defaultUsage : String) (tags : Element) : Except Error (List Entry) :=
  ((tags.childrenNamed "Tag").zipIdx).mapM fun (tag, index) =>
    entryOf path defaultUsage index tag

/-- The entries of the tags of a program. -/
def programEntries (controllerPath : String) (program : Element) : Except Error (List Entry) :=
  match program.child? "Tags" with
  | none => .ok []
  | some tags =>
    let name := (program.attribute? "Name").getD ""
    entriesOf (controllerPath ++ "/Programs/Program[@Name='" ++ name ++ "']/Tags") "Local" tags

/-- The entries of a document: first those of the controller, then those of its
programs. -/
def entries (root : Element) : Except Error (List Entry) :=
  if root.name ≠ rootName then
    .error ⟨.element root.name, .unexpectedRoot ("<" ++ rootName ++ ">")⟩
  else match root.child? "Controller" with
    | none => .error ⟨.element rootName, .missingElement "Controller"⟩
    | some controller => do
      let path := rootName ++ "/Controller"
      let global ← match controller.child? "Tags" with
        | some tags => entriesOf (path ++ "/Tags") "Global" tags
        | none => .ok []
      let programs := ((controller.child? "Programs").map (·.childrenNamed "Program")).getD []
      let «local» ← programs.mapM (programEntries path)
      return global ++ «local».flatten

end PlcTags.Container.L5x
