import PlcTags.Source.Extraction
import PlcTags.Wire.Tag

/-!
# Lines and declarations as JSON
-/

namespace PlcTags.Source

def Line.toJson (line : Line) : Json :=
  .object [("number", .int line.number), ("code", .string line.code),
    ("comment", .string line.comment)]

def Block.toJson (block : Block) : Json :=
  .object [
    ("kind", .string block.kind.word),
    ("constant", .bool block.constant),
    ("scope", .string block.scope.word),
    ("category", (block.category?.map fun category => Json.string category.word).getD .null)]

/-- A declaration shows its vendor; a text that was not read stands by itself. -/
def Entry.toJson (vendor : Vendor) : Entry → Json
  | declared declaration =>
    .object [
      ("vendor", .string vendor.word),
      ("name", .string declaration.name),
      ("typeName", .string declaration.typeName),
      ("address", .string declaration.address),
      ("defaultValue", .string declaration.defaultValue),
      ("description", .string declaration.description),
      ("line", .int declaration.line),
      ("section", declaration.block.toJson)]
  | unread line text reason =>
    .object [("partial", .object [("line", .int line), ("text", .string text),
      ("reason", .string reason.message)])]

def Extraction.toJson (extraction : Extraction) : Json :=
  .object [
    ("vendor", .string extraction.vendor.word),
    ("declarations", .array (extraction.entries.map (Entry.toJson extraction.vendor))),
    ("declared", .int extraction.declarations.length),
    ("diagnostics", Diagnostic.listToJson extraction.diagnostics)]

end PlcTags.Source
