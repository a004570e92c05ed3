import PlcTags.Proofs.Container.Document

/-!
# Siemens documents keep tags

The tags of a written Siemens document are all elements of one name, wherever
they stand; inside of a tag there is no further one (`descendants_tagNode`).  The
fields of a tag are texts of elements, and reading trims them.  Default and comment
are left out if they are empty.  The identifiers of the objects are not read.
-/

namespace PlcTags.Container.Tia

open Markup (Element IsTag Node)

/-! ## Tags of the document -/

theorem isWritable_leaf {name : String} (hname : Markup.IsName name) (text : String) :
    (leaf name text).IsWritable :=
  .of_keys [] rfl ⟨hname, by decide, by decide⟩

theorem isWritable_commentNode (number : Nat) (description : String) :
    (commentNode number description).IsWritable := by
  have hfields : Node.AllWritable [leaf "Culture" culture, leaf "Text" description] :=
    ⟨isWritable_leaf (by decide) _, isWritable_leaf (by decide) _, trivial⟩
  have hobject : IsTag "ObjectList" [] := .of_keys [] rfl (by decide)
  exact ⟨hobject, ⟨.of_keys ["ID", "CompositionName"] rfl (by decide), ⟨hobject,
    ⟨.of_keys ["ID", "CompositionName"] rfl (by decide),
      ⟨.of_keys [] rfl (by decide), hfields⟩, trivial⟩, trivial⟩, trivial⟩, trivial⟩

/-- The element with the fields of a tag. -/
def fieldsNode (vendor : Vendor) (tag : Tag) : Node :=
  .branch "AttributeList" []
    ([leaf "DataTypeName" (vendor.typeName tag.dataType)] ++
      (if tag.defaultValue.isEmpty then [] else [leaf "DefaultValue" tag.defaultValue]) ++
      [leaf "LogicalAddress" (vendor.containerAddress tag.address), leaf "Name" tag.name,
        leaf "Usage" (vendor.scopeWord tag.scope)])

theorem isWritable_fieldsNode (vendor : Vendor) (tag : Tag) :
    (fieldsNode vendor tag).IsWritable := by
  refine ⟨.of_keys [] rfl (by decide), (Markup.allWritable_iff _).mpr ?_⟩
  have hdefault : ∀ node ∈ (if tag.defaultValue.isEmpty then []
      else [leaf "DefaultValue" tag.defaultValue]), node.IsWritable := by
    intro node hnode
    split at hnode
    · cases hnode
    · obtain rfl := List.mem_singleton.mp hnode
      exact isWritable_leaf (by decide) _
  intro node hnode
  simp only [List.mem_append, List.mem_cons, List.not_mem_nil, or_false] at hnode
  rcases hnode with (rfl | hnode) | rfl | rfl | rfl
  · exact isWritable_leaf (by decide) _
  · exact hdefault node hnode
  · exact isWritable_leaf (by decide) _
  · exact isWritable_leaf (by decide) _
  · exact isWritable_leaf (by decide) _

theorem isWritable_tagNode (number : Nat) (vendor : Vendor) (tag : Tag) :
    (tagNode number vendor tag).IsWritable := by
  refine ⟨.of_keys ["ID", "CompositionName"] rfl (by decide), isWritable_fieldsNode vendor tag, ?_⟩
  split
  · trivial
  · exact ⟨isWritable_commentNode _ _, trivial⟩

theorem isWritable_document (vendor : Vendor) (tags : List Tag) :
    (document vendor tags).IsWritable := by
  have htags : ∀ (tags : List Tag) (number : Nat),
      Node.AllWritable (tagNodes number vendor tags) := by
    intro tags
    induction tags with
    | nil => exact fun _ => trivial
    | cons tag tags ih => exact fun number => ⟨isWritable_tagNode number vendor tag, ih _⟩
  refine ⟨.of_keys [] rfl (by decide), .of_keys ["version"] rfl (by decide), ⟨?_, ?_, ?_, trivial⟩,
    trivial⟩
  · exact .of_keys ["ID"] rfl (by decide)
  · exact ⟨.of_keys [] rfl (by decide), isWritable_leaf (by decide) _, trivial⟩
  · exact ⟨.of_keys [] rfl (by decide), htags tags 1⟩

/-! ## Fields of a tag -/

theorem commentOf?_tagNode (number : Nat) (vendor : Vendor) (tag : Tag) (depth : Nat) :
    (commentOf? ((tagNode number vendor tag).element depth)).getD "" =
      Text.trimmed tag.description := by
  by_cases hdescription : tag.description = ""
  · simp [commentOf?, tagNode, hdescription, Node.element, Node.elements, Element.child?,
      Text.trimmed]
  · have hculture : Text.trimmed culture = culture := by decide
    simp [commentOf?, tagNode, hdescription, Node.element, Node.elements, Element.child?,
      Element.childrenNamed, Element.attribute?, commentNode, leaf, childText?,
      Markup.Content.text, hculture, List.lookup_cons]

/-- The fields of a tag by their names. -/
theorem childText?_fieldsNode (vendor : Vendor) (tag : Tag) (depth : Nat) :
    childText? ((fieldsNode vendor tag).element depth) "Name" = some (Text.trimmed tag.name) ∧
      childText? ((fieldsNode vendor tag).element depth) "DataTypeName" =
        some (Text.trimmed (vendor.typeName tag.dataType)) ∧
      childText? ((fieldsNode vendor tag).element depth) "LogicalAddress" =
        some (Text.trimmed (vendor.containerAddress tag.address)) ∧
      childText? ((fieldsNode vendor tag).element depth) "Usage" =
        some (Text.trimmed (vendor.scopeWord tag.scope)) ∧
      (childText? ((fieldsNode vendor tag).element depth) "DefaultValue").getD "" =
        Text.trimmed tag.defaultValue := by
  by_cases hdefault : tag.defaultValue = ""
  · simp [fieldsNode, leaf, childText?, hdefault, Node.element, Node.elements, Element.child?,
      Markup.Content.text, Text.trimmed]
  · simp [fieldsNode, leaf, childText?, hdefault, Node.element, Node.elements, Element.child?,
      Markup.Content.text]

/-- The entry of a tag's element: all texts are trimmed. -/
def carriedEntry (vendor : Vendor) (tag : Tag) : Entry where
  name := Text.trimmed tag.name
  typeName := vendor.typeName tag.dataType
  address := vendor.containerAddress tag.address
  scope := vendor.scopeWord tag.scope
  defaultValue := Text.trimmed tag.defaultValue
  description := Text.trimmed tag.description
  line := none

theorem describes_carriedEntry {vendor : Vendor} {tag : Tag} (htag : tag.Expressible vendor) :
    (carriedEntry vendor tag).Describes vendor tag.carried where
  name_eq := Text.trimmed_trimmed tag.name
  type_eq := readType?_typeName vendor tag.dataType
  address_eq := addressFromContainer_containerAddress htag.address_canonical
  scope_eq := readScope_of_scope_eq rfl
  default_eq := Text.trimmed_trimmed tag.defaultValue
  description_eq := Text.trimmed_trimmed tag.description

theorem carriedEntry_of_portable {vendor : Vendor} {tag : Tag} (htag : tag.Portable vendor) :
    carriedEntry vendor tag = Entry.ofTag vendor tag none := by
  rw [carriedEntry, htag.name_trimmed, htag.default_trimmed, htag.description_trimmed]
  rfl

theorem entryOf_tagNode {vendor : Vendor} {tag : Tag} (htag : tag.Expressible vendor)
    (path : String) (number depth : Nat) :
    entryOf path ((tagNode number vendor tag).element depth) =
      .ok (carriedEntry vendor tag) := by
  have hfields : ((tagNode number vendor tag).element depth).child? "AttributeList" =
      some ((fieldsNode vendor tag).element (depth + 1)) := rfl
  obtain ⟨hname, htype, haddress, husage, hdefault⟩ :=
    childText?_fieldsNode vendor tag (depth + 1)
  have hfilled : (Text.trimmed tag.name).isEmpty = false := by simpa using htag.trimmed_name_ne
  unfold entryOf
  simp only [hfields, hname, htype, haddress, husage, hdefault, commentOf?_tagNode,
    Option.getD_some]
  rw [hfilled, if_neg (by decide), trimmed_typeName,
    trimmed_containerAddress htag.address_canonical, trimmed_scopeWord]
  rfl

/-! ## The document -/

theorem descendants_tagNode (number : Nat) (vendor : Vendor) (tag : Tag) (path : String)
    (depth : Nat) : descendants tagName path ((tagNode number vendor tag).element depth) = [] := by
  by_cases hdescription : tag.description = "" <;> by_cases hdefault : tag.defaultValue = "" <;>
    simp [tagNode, hdescription, hdefault, Node.element, Node.elements, descendants,
      descendantsAt, leaf, commentNode, tagName]

/-- Tags side by side are found in order. -/
theorem mapM_descendantsAt {vendor : Vendor} {tags : List Tag}
    (htags : ∀ tag ∈ tags, tag.Expressible vendor) (path : String) (index number depth : Nat) :
    (descendantsAt tagName path index
        (Node.elements depth (tagNodes number vendor tags))).mapM
        (fun (path, tag) => entryOf path tag) =
      .ok (tags.map (carriedEntry vendor)) := by
  induction tags generalizing index number with
  | nil => rfl
  | cons tag tags ih =>
      have hrest := ih (fun other hother => htags other (List.mem_cons_of_mem _ hother))
        (index + 1) (number + objectCount tag)
      have hname : ((tagNode number vendor tag).element depth).name = tagName := rfl
      -- The tag itself is found, and nothing inside of it.
      rw [tagNodes, Node.elements, descendantsAt, descendants_tagNode, hname, if_pos rfl,
        List.append_nil, List.singleton_append, List.mapM_cons, hrest]
      dsimp only
      rw [entryOf_tagNode (htags tag List.mem_cons_self)]
      rfl

/-- The entries of a written document are those of the tags. -/
theorem entries_document_carried {vendor : Vendor} {tags : List Tag}
    (htags : ∀ tag ∈ tags, tag.Expressible vendor) :
    entries ((document vendor tags).element 0) = .ok (tags.map (carriedEntry vendor)) := by
  have hname : ((document vendor tags).element 0).name = "Document" := rfl
  have htable : (descendants tableName "Document" ((document vendor tags).element 0)).isEmpty =
      false := by
    simp [document, Node.element, Node.elements, descendants, descendantsAt, tableName]
  -- The path only serves messages, so it does not matter which one it is.
  have hfound : ∃ path, descendants tagName "Document" ((document vendor tags).element 0) =
      descendantsAt tagName path 1 (Node.elements 3 (tagNodes 1 vendor tags)) := by
    refine ⟨"Document" ++ "/" ++ tableName ++ "[" ++ toString 2 ++ "]" ++ "/" ++ "ObjectList" ++
      "[" ++ toString 2 ++ "]", ?_⟩
    simp [document, Node.element, Node.elements, descendants, descendantsAt, leaf, tableName,
      tagName]
  obtain ⟨path, hfound⟩ := hfound
  unfold entries
  rw [hname, if_neg (fun hne => hne rfl), htable, if_neg (by decide), hfound]
  exact mapM_descendantsAt htags path 1 1 3

theorem entries_document {vendor : Vendor} {tags : List Tag}
    (htags : ∀ tag ∈ tags, tag.Portable vendor) :
    entries ((document vendor tags).element 0) =
      .ok (tags.map fun tag => Entry.ofTag vendor tag none) := by
  rw [entries_document_carried fun tag htag => (htags tag htag).expressible,
    List.map_congr_left fun tag htag => carriedEntry_of_portable (htags tag htag)]

end PlcTags.Container.Tia
