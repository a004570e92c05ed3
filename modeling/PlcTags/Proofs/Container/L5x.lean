import PlcTags.Proofs.Container.Document

/-!
# Rockwell documents keep tags

The tags of a written Rockwell document are those of the controller; it has no
programs.  The fields of a tag stand in attributes, but for description and
default, which have elements of their own and are left out if they are empty.
An address makes a tag an alias, and is read again because of that.
-/

namespace PlcTags.Container.L5x

open Markup (Element IsTag Node)

/-! ## Tags of the document -/

theorem isWritable_tagNode (vendor : Vendor) (tag : Tag) : (tagNode vendor tag).IsWritable := by
  constructor
  · cases (vendor.containerAddress tag.address).isEmpty with
    | true =>
        exact .of_keys ["Name", "TagType", "DataType", "Usage", "ExternalAccess"] rfl (by decide)
    | false =>
        exact .of_keys ["Name", "TagType", "AliasFor", "DataType", "Usage", "ExternalAccess"] rfl
          (by decide)
  · rw [Markup.allWritable_iff]
    intro node hnode
    rcases List.mem_append.mp hnode with hdescription | hdata
    · unfold descriptionNodes at hdescription
      split at hdescription
      · cases hdescription
      · obtain rfl := List.mem_singleton.mp hdescription
        exact .of_keys [] rfl (by decide)
    · unfold dataNodes at hdata
      split at hdata
      · cases hdata
      · obtain rfl := List.mem_singleton.mp hdata
        exact ⟨.of_keys ["Format"] rfl (by decide),
          .of_keys ["DataType", "Value"] rfl (by decide), trivial⟩

theorem isWritable_document (date : String) (vendor : Vendor) (tags : List Tag) :
    (document date vendor tags).IsWritable := by
  have htags : Node.AllWritable (tags.map (tagNode vendor)) := by
    rw [Markup.allWritable_iff]
    intro node hnode
    obtain ⟨tag, -, rfl⟩ := List.mem_map.mp hnode
    exact isWritable_tagNode vendor tag
  refine ⟨.of_keys ["SchemaRevision", "SoftwareRevision", "TargetName", "TargetType",
    "ContainsContext", "ExportDate", "ExportOptions"] rfl (by decide), ⟨?_, ?_, trivial⟩, trivial⟩
  · exact .of_keys ["Use", "Name"] rfl (by decide)
  · exact ⟨.of_keys ["Use"] rfl (by decide), htags⟩

/-! ## Fields of a tag -/

theorem defaultOf_tagNode (vendor : Vendor) (tag : Tag) (depth : Nat) :
    defaultOf ((tagNode vendor tag).element depth) = tag.defaultValue := by
  have hdata : ((tagNode vendor tag).element depth).childrenNamed "Data" =
      (dataNodes (vendor.typeName tag.dataType) tag).map (Node.element (depth + 1)) := by
    by_cases hdescription : tag.description = "" <;> by_cases hdefault : tag.defaultValue = "" <;>
      simp [tagNode, descriptionNodes, dataNodes, hdescription, hdefault, Node.element,
        Node.elements, Element.childrenNamed]
  unfold defaultOf
  rw [hdata]
  by_cases hdefault : tag.defaultValue = ""
  · simp [dataNodes, hdefault]
  · simp [dataNodes, hdefault, Node.element, Node.elements, Element.attribute?, Element.child?,
      List.lookup_cons]

theorem description_tagNode (vendor : Vendor) (tag : Tag) (depth : Nat) :
    ((((tagNode vendor tag).element depth).child? "Description").map
      fun text => Text.trimmed text.text).getD "" = Text.trimmed tag.description := by
  by_cases hdescription : tag.description = ""
  · by_cases hdefault : tag.defaultValue = "" <;>
      simp [tagNode, descriptionNodes, dataNodes, hdescription, hdefault, Node.element,
        Node.elements, Element.child?, Text.trimmed]
  · simp [tagNode, descriptionNodes, hdescription, Node.element, Node.elements, Element.child?,
      Markup.Content.text]

theorem addressOf_tagNode (vendor : Vendor) (tag : Tag) (depth : Nat) :
    addressOf ((tagNode vendor tag).element depth) = vendor.containerAddress tag.address := by
  have hbase : ("Base".toLower == "alias") = false := by decide +kernel
  have halias : ("Alias".toLower == "alias") = true := by decide +kernel
  by_cases hempty : vendor.containerAddress tag.address = ""
  · simp [addressOf, tagNode, hempty, Node.element, Element.attribute?, List.lookup_cons, hbase]
  · simp [addressOf, tagNode, hempty, Node.element, Element.attribute?, List.lookup_cons, halias]

/-- The entry of a tag's element: only the description is trimmed here. -/
def carriedEntry (vendor : Vendor) (tag : Tag) : Entry :=
  { Entry.ofTag vendor tag none with description := Text.trimmed tag.description }

theorem describes_carriedEntry {vendor : Vendor} {tag : Tag} (htag : tag.Expressible vendor) :
    (carriedEntry vendor tag).Describes vendor tag.carried where
  name_eq := rfl
  type_eq := readType?_typeName vendor tag.dataType
  address_eq := addressFromContainer_containerAddress htag.address_canonical
  scope_eq := readScope_of_scope_eq rfl
  default_eq := rfl
  description_eq := Text.trimmed_trimmed tag.description

theorem carriedEntry_of_portable {vendor : Vendor} {tag : Tag} (htag : tag.Portable vendor) :
    carriedEntry vendor tag = Entry.ofTag vendor tag none := by
  rw [carriedEntry, htag.description_trimmed]
  rfl

theorem entryOf_tagNode (vendor : Vendor) (tag : Tag) (path usage : String)
    (index depth : Nat) :
    entryOf path usage index ((tagNode vendor tag).element depth) =
      .ok (carriedEntry vendor tag) := by
  have hname : ((tagNode vendor tag).element depth).attribute? "Name" = some tag.name := by
    simp [tagNode, Node.element, Element.attribute?]
  have htype : ((tagNode vendor tag).element depth).attribute? "DataType" =
      some (vendor.typeName tag.dataType) := by
    by_cases hempty : vendor.containerAddress tag.address = "" <;>
      simp [tagNode, hempty, Node.element, Element.attribute?, List.lookup_cons]
  have husage : ((tagNode vendor tag).element depth).attribute? "Usage" =
      some (vendor.scopeWord tag.scope) := by
    by_cases hempty : vendor.containerAddress tag.address = "" <;>
      simp [tagNode, hempty, Node.element, Element.attribute?, List.lookup_cons]
  unfold entryOf
  rw [hname, htype, husage, addressOf_tagNode, defaultOf_tagNode, description_tagNode]
  rfl

/-! ## The document -/

/-- The element that has the tags of a document in it. -/
def tagsNode (vendor : Vendor) (tags : List Tag) : Node :=
  .branch "Tags" [("Use", "Context")] (tags.map (tagNode vendor))

theorem entriesOf_tagsNode (vendor : Vendor) (tags : List Tag) (path usage : String)
    (depth : Nat) :
    entriesOf path usage ((tagsNode vendor tags).element depth) =
      .ok (tags.map (carriedEntry vendor)) := by
  have hchildren : ((tagsNode vendor tags).element depth).childrenNamed "Tag" =
      tags.map fun tag => (tagNode vendor tag).element (depth + 1) := by
    rw [Element.childrenNamed]
    show (Node.elements (depth + 1) (tags.map (tagNode vendor))).filter _ = _
    rw [Markup.elements_eq_map, List.map_map]
    refine List.filter_eq_self.mpr ?_
    intro element helement
    obtain ⟨tag, -, rfl⟩ := List.mem_map.mp helement
    rfl
  rw [entriesOf, hchildren]
  exact mapM_zipIdx (fun tag _ index => entryOf_tagNode vendor tag path usage index _) 0

/-- The entries of a written document are those of the tags. -/
theorem entries_document_carried (date : String) (vendor : Vendor) (tags : List Tag) :
    entries ((document date vendor tags).element 0) =
      .ok (tags.map (carriedEntry vendor)) := by
  have hcontroller : ((document date vendor tags).element 0).child? "Controller" =
      some ((Node.branch "Controller" [("Use", "Context"), ("Name", "Tags")]
        [tagsNode vendor tags]).element 1) := rfl
  have htagsNode : ((Node.branch "Controller" [("Use", "Context"), ("Name", "Tags")]
      [tagsNode vendor tags]).element 1).child? "Tags" =
        some ((tagsNode vendor tags).element 2) := rfl
  have hprograms : ((Node.branch "Controller" [("Use", "Context"), ("Name", "Tags")]
      [tagsNode vendor tags]).element 1).child? "Programs" = none := rfl
  have hname : ((document date vendor tags).element 0).name = rootName := rfl
  unfold entries
  rw [hname, if_neg (fun hne => hne rfl), hcontroller]
  simp only [htagsNode, hprograms, entriesOf_tagsNode]
  simp

theorem entries_document (date : String) {vendor : Vendor} {tags : List Tag}
    (htags : ∀ tag ∈ tags, tag.Portable vendor) :
    entries ((document date vendor tags).element 0) =
      .ok (tags.map fun tag => Entry.ofTag vendor tag none) := by
  rw [entries_document_carried,
    List.map_congr_left fun tag htag => carriedEntry_of_portable (htags tag htag)]

end PlcTags.Container.L5x
