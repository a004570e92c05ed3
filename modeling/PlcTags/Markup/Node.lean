import PlcTags.Markup.Entity

/-!
# Writing markup

A document is written from a tree of nodes: empty elements, elements with a text, and
elements with further elements in them.  Every tag begins on a line of its own,
indented by two blanks for each element around it, but for the end tag of an element
with a text, which follows the text.

The same document comes out when its parts are written one after the other: a `Writer`
knows how many elements are open and whether a line begins.
-/

namespace PlcTags.Markup

/-- The text of an element, escaped or in a CDATA section. -/
inductive Content where
  | escaped (text : String)
  | cdata (text : String)
  deriving DecidableEq, Repr

inductive Node where
  | empty (name : String) (attributes : List (String × String))
  | leaf (name : String) (attributes : List (String × String)) (content : Content)
  | branch (name : String) (attributes : List (String × String)) (children : List Node)
  deriving Repr, Inhabited

/-- Whether a text would end a CDATA section. -/
def endsSection : List Char → Bool
  | ']' :: ']' :: '>' :: _ => true
  | _ :: rest => endsSection rest
  | [] => false

/-- A text that would end a CDATA section is escaped instead. -/
def Content.render : Content → List Char
  | .escaped text => escape text.toList
  | .cdata text =>
    if endsSection text.toList then escape text.toList
    else "<![CDATA[".toList ++ text.toList ++ "]]>".toList

def renderAttribute (pair : String × String) : List Char :=
  ' ' :: pair.1.toList ++ ['=', '"'] ++ escape pair.2.toList ++ ['"']

/-- A tag between its angle brackets. -/
def renderTag (name : String) (attributes : List (String × String)) : List Char :=
  name.toList ++ attributes.flatMap renderAttribute

/-- The beginning of a line inside `depth` elements. -/
def newLine (depth : Nat) : List Char :=
  '\n' :: List.replicate (2 * depth) ' '

mutual

/-- A node inside `depth` elements. -/
def Node.render (depth : Nat) : Node → List Char
  | .empty name attributes =>
    newLine depth ++ '<' :: renderTag name attributes ++ ['/', '>']
  | .leaf name attributes content =>
    newLine depth ++ '<' :: renderTag name attributes ++ '>' :: content.render ++
      ['<', '/'] ++ name.toList ++ ['>']
  | .branch name attributes children =>
    newLine depth ++ '<' :: renderTag name attributes ++ '>' ::
      Node.renderAll (depth + 1) children ++ newLine depth ++ ['<', '/'] ++ name.toList ++ ['>']

/-- Nodes side by side. -/
def Node.renderAll (depth : Nat) : List Node → List Char
  | [] => []
  | node :: nodes => node.render depth ++ Node.renderAll depth nodes

end

/-- The first line of a document. -/
def declaration (standalone : Bool) : List Char :=
  "<?xml version=\"1.0\" encoding=\"UTF-8\"".toList ++
    (if standalone then " standalone=\"yes\"".toList else []) ++ "?>".toList

/-- A document with its root. -/
def renderDocument (standalone : Bool) (root : Node) : String :=
  String.ofList (declaration standalone ++ root.render 0)

/-! ## Writing one part after the other -/

/-- A document that is being written. -/
structure Writer where
  written : List Char := []
  /-- How many elements are open. -/
  depth : Nat := 0
  /-- Whether a tag begins a line here, which it does neither at the beginning nor behind
  a text. -/
  breaksLine : Bool := false

namespace Writer

/-- Writes markup, on a line of its own where that may begin. -/
def markup (writer : Writer) (text : List Char) : Writer :=
  let line := if writer.breaksLine then newLine writer.depth else []
  { writer with written := writer.written ++ line ++ text, breaksLine := true }

def declare (writer : Writer) (standalone : Bool) : Writer :=
  writer.markup (declaration standalone)

/-- Opens an element. -/
def start (writer : Writer) (name : String) (attributes : List (String × String)) : Writer :=
  let opened := writer.markup ('<' :: renderTag name attributes ++ ['>'])
  { opened with depth := opened.depth + 1 }

/-- Closes the innermost open element. -/
def close (writer : Writer) (name : String) : Writer :=
  { writer with depth := writer.depth - 1 }.markup (['<', '/'] ++ name.toList ++ ['>'])

def empty (writer : Writer) (name : String) (attributes : List (String × String)) : Writer :=
  writer.markup ('<' :: renderTag name attributes ++ ['/', '>'])

/-- Writes the text of the innermost open element, even if there is none. -/
def put (writer : Writer) (content : Content) : Writer :=
  { writer with written := writer.written ++ content.render, breaksLine := false }

/-- The bytes of the document. -/
def finish (writer : Writer) : ByteArray :=
  (String.ofList writer.written).toUTF8

end Writer

mutual

/-- Writes a node: an element with a text is opened, filled and closed, and so is one with
children. -/
def Node.write (writer : Writer) : Node → Writer
  | .empty name attributes => writer.empty name attributes
  | .leaf name attributes content => ((writer.start name attributes).put content).close name
  | .branch name attributes children =>
    (Node.writeAll (writer.start name attributes) children).close name

/-- Writes nodes side by side. -/
def Node.writeAll (writer : Writer) : List Node → Writer
  | [] => writer
  | node :: nodes => Node.writeAll (node.write writer) nodes

end

/-- The bytes of a document with its root, which may begin with a declaration. -/
def writeDocument (standalone? : Option Bool) (root : Node) : ByteArray :=
  let writer : Writer := match standalone? with
    | some standalone => Writer.declare {} standalone
    | none => {}
  (root.write writer).finish

end PlcTags.Markup
