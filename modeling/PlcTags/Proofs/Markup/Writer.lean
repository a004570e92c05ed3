import Mathlib.Data.List.Forall2
import PlcTags.Proofs.Markup.Document
import PlcTags.Text.Utf8

/-!
# Trees that are written part by part are read back

A writer puts down one part of a document after the other: it opens and closes
elements, and knows no more than how many are open and whether a line begins.  What
comes out is the document of the whole tree (`write_eq_markup`,
`decode_writeDocument_some`), so it is read back; main statement: `trees_readBack`.

What that means is said without the writer and the reader: `Node.IsReadAs` holds of an
element that has the name and the attributes of a node, its children in their order, and
exactly its text.
-/

namespace PlcTags.Markup

/-! ## What is written -/

mutual

/-- A node is written as markup: on a line of its own, or at the very beginning. -/
theorem write_eq_markup : ∀ (node : Node) (writer : Writer),
    node.write writer = writer.markup (node.bare writer.depth)
  | .empty name attributes, writer => by
      rw [Node.write, Node.bare_empty]
      rfl
  | .leaf name attributes content, writer => by
      rw [Node.write, Node.bare_leaf]
      simp [Writer.start, Writer.put, Writer.close, Writer.markup]
  | .branch name attributes children, writer => by
      rw [Node.write, writeAll_eq_renderAll children _ rfl, Node.bare_branch]
      simp [Writer.start, Writer.close, Writer.markup]

/-- Nodes side by side are written on lines of their own. -/
theorem writeAll_eq_renderAll : ∀ (nodes : List Node) (writer : Writer)
    (_ : writer.breaksLine = true),
    Node.writeAll writer nodes =
      { writer with written := writer.written ++ Node.renderAll writer.depth nodes }
  | [], writer, _ => by
      simp [Node.writeAll, Node.renderAll]
  | node :: nodes, writer, h => by
      rw [Node.writeAll, write_eq_markup node, writeAll_eq_renderAll nodes _ rfl, Node.renderAll,
        node.render_eq]
      simp [Writer.markup, h]

end

/-- The parts of a tree make up the document of the tree. -/
theorem decode_writeDocument_some (standalone : Bool) (root : Node) :
    Text.Utf8.decode (writeDocument (some standalone) root) =
      .ok (renderDocument standalone root) := by
  have hwritten : writeDocument (some standalone) root =
      (renderDocument standalone root).toUTF8 := by
    rw [writeDocument, renderDocument, write_eq_markup, root.render_eq, ← List.append_assoc]
    rfl
  rw [hwritten, Text.Utf8.decode_toUTF8]

/-- Without a declaration the root begins the document. -/
theorem decode_writeDocument_none (root : Node) :
    Text.Utf8.decode (writeDocument none root) = .ok (String.ofList (root.bare 0)) := by
  have hwritten : writeDocument none root = (String.ofList (root.bare 0)).toUTF8 := by
    rw [writeDocument, write_eq_markup]
    rfl
  rw [hwritten, Text.Utf8.decode_toUTF8]

/-! ## What is read -/

/-- An element is what a node was written for: it has its name, its attributes and its
children in their order, and exactly its text.  An element with a list of children has
nothing but the beginnings of lines as its text. -/
inductive Node.IsReadAs : Node → Element → Prop where
  | empty (name : String) (attributes : List (String × String)) :
    IsReadAs (.empty name attributes) ⟨name, attributes, [], ""⟩
  | leaf (name : String) (attributes : List (String × String)) (content : Content) :
    IsReadAs (.leaf name attributes content) ⟨name, attributes, [], content.text⟩
  | branch (name : String) (attributes : List (String × String)) {children : List Node}
    {elements : List Element} {text : String}
    (hchildren : List.Forall₂ IsReadAs children elements)
    (hblank : text.toList.all isSpace = true) :
    IsReadAs (.branch name attributes children) ⟨name, attributes, elements, text⟩

theorem isSpace_newLine (depth : Nat) : (newLine depth).all isSpace = true := by
  have hspaces : (List.replicate (2 * depth) ' ').all isSpace = true :=
    List.all_eq_true.mpr fun c hc => by rw [List.eq_of_mem_replicate hc]; rfl
  rw [newLine, List.all_cons, hspaces]
  rfl

theorem isSpace_lineStarts (depth : Nat) (nodes : List Node) :
    (lineStarts depth nodes).all isSpace = true := by
  induction nodes with
  | nil => rfl
  | cons node nodes ih =>
      have hcons : lineStarts depth (node :: nodes) = newLine depth ++ lineStarts depth nodes := rfl
      rw [hcons, List.all_append, isSpace_newLine, ih]
      rfl

mutual

theorem isReadAs_element : ∀ (node : Node) (depth : Nat), node.IsReadAs (node.element depth)
  | .empty name attributes, _ => .empty name attributes
  | .leaf name attributes content, _ => .leaf name attributes content
  | .branch name attributes children, depth => by
      refine .branch name attributes (forall₂_isReadAs_elements children (depth + 1)) ?_
      rw [String.toList_ofList, List.all_append, isSpace_lineStarts, isSpace_newLine]
      rfl

theorem forall₂_isReadAs_elements : ∀ (nodes : List Node) (depth : Nat),
    List.Forall₂ Node.IsReadAs nodes (Node.elements depth nodes)
  | [], _ => .nil
  | node :: nodes, depth =>
      .cons (isReadAs_element node depth) (forall₂_isReadAs_elements nodes depth)

end

/-- **Written trees are read back.**  Whatever the values of its attributes and its texts
are, a tree that is written part by part, with or without a declaration in front, gives
bytes from which its elements are read again.  Behind a declaration the bytes are those of
the rendered document. -/
theorem trees_readBack (standalone? : Option Bool) {root : Node} (h : root.IsWritable) :
    ∃ document element, Text.Utf8.decode (writeDocument standalone? root) = .ok document ∧
      (∀ standalone ∈ standalone?, document = renderDocument standalone root) ∧
      parse document = .ok element ∧ root.IsReadAs element := by
  cases standalone? with
  | none =>
      refine ⟨_, root.element 0, decode_writeDocument_none root, ?_, parse_bare h,
        isReadAs_element root 0⟩
      intro standalone hstandalone
      cases hstandalone
  | some standalone =>
      refine ⟨_, root.element 0, decode_writeDocument_some standalone root, ?_,
        parse_renderDocument standalone h, isReadAs_element root 0⟩
      intro declared hdeclared
      rw [Option.mem_some.mp hdeclared]

/-- Texts that look like markup, under names with other letters. -/
def awkwardTree : Node :=
  .branch "Größe" [("k", "a\"b"), ("Wert-2", " <&amp;>\r\n")]
    [.leaf "t" [] (.escaped "1 < 2 &lt; ]]>\n "), .leaf "d" [] (.cdata "x ]]> y"),
      .leaf "c" [] (.cdata "<z/> & ]]"), .branch "b" [] [.leaf "e" [] (.cdata "")],
      .branch "a" [] [], .empty "z" [("x", "")]]

theorem trees_readBack_awkward : awkwardTree.IsWritable ∧
    ∃ document element, Text.Utf8.decode (writeDocument (some true) awkwardTree) = .ok document ∧
      (∀ standalone ∈ some true, document = renderDocument standalone awkwardTree) ∧
      parse document = .ok element ∧ awkwardTree.IsReadAs element := by
  have hnames : ∀ name ∈ ["t", "d", "c", "b", "e", "a"], IsName name := by decide
  have hplain : ∀ name ∈ ["t", "d", "c", "b", "e", "a"], IsTag name [] := fun name hname =>
    .of_keys [] rfl ⟨hnames name hname, by decide, by decide⟩
  have hroot : IsTag "Größe" [("k", "a\"b"), ("Wert-2", " <&amp;>\r\n")] :=
    .of_keys ["k", "Wert-2"] rfl (by decide)
  have hlast : IsTag "z" [("x", "")] := .of_keys ["x"] rfl (by decide)
  have hwritable : awkwardTree.IsWritable :=
    ⟨hroot, hplain "t" (by decide), hplain "d" (by decide), hplain "c" (by decide),
      ⟨hplain "b" (by decide), hplain "e" (by decide), trivial⟩,
      ⟨hplain "a" (by decide), trivial⟩, hlast, trivial⟩
  exact ⟨hwritable, trees_readBack (some true) hwritable⟩

end PlcTags.Markup
