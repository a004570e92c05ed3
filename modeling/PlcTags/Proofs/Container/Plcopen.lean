import PlcTags.Proofs.Container.Document

/-!
# Beckhoff documents keep tags

The tags of a written Beckhoff document stand in lists of variables, one for each
run of tags with the same scope, so that the scope is the name of the list and
not a field of the tag.  Put together the runs are all tags in order
(`flatMap_runs`), and the tags of a run have its scope (`scope_of_mem_runs`).
Types are named by elements, some of them by elements of their own
(`typeNameOf_typeNode`).  The other parts of a document have no lists in them.
-/

namespace PlcTags.Container.Plcopen

open Markup (Element IsTag Node)

/-! ## Runs -/

theorem flatMap_runs (tags : List Tag) : (runs tags).flatMap Prod.snd = tags := by
  induction tags with
  | nil => rfl
  | cons tag tags ih =>
      rw [runs]
      cases hruns : runs tags with
      | nil =>
          rw [hruns] at ih
          rw [← ih]
          rfl
      | cons first rest =>
          obtain ⟨scope, run⟩ := first
          rw [hruns] at ih
          dsimp only
          split
          · rw [← ih]
            rfl
          · rw [← ih]
            rfl

theorem scope_of_mem_runs {tags : List Tag} :
    ∀ run ∈ runs tags, ∀ tag ∈ run.2, tag.scope = run.1 := by
  induction tags with
  | nil =>
      intro run hrun
      cases hrun
  | cons tag tags ih =>
      rw [runs]
      cases hruns : runs tags with
      | nil =>
          intro run hrun other hother
          obtain rfl := List.mem_singleton.mp hrun
          rw [List.mem_singleton.mp hother]
      | cons first rest =>
          obtain ⟨scope, run⟩ := first
          rw [hruns] at ih
          dsimp only
          split
          · -- The tag joins the run behind it.
            rename_i hscope
            intro found hfound other hother
            rcases List.mem_cons.mp hfound with rfl | hrest
            · rcases List.mem_cons.mp hother with rfl | hold
              · exact hscope
              · exact ih (scope, run) List.mem_cons_self other hold
            · exact ih found (List.mem_cons_of_mem _ hrest) other hother
          · -- The tag begins a run of its own.
            intro found hfound other hother
            rcases List.mem_cons.mp hfound with rfl | hrest
            · rw [List.mem_singleton.mp hother]
            · exact ih found hrest other hother

/-! ## Types -/

theorem isWritable_typeNode (typeName : String) : (typeNode typeName).IsWritable := by
  unfold typeNode
  split
  · exact .of_keys [] rfl (by decide)
  · split
    · rename_i helementary
      have hname : ∀ name ∈ elementaryTypes, Markup.IsName name := by decide
      have hmem : typeName ∈ elementaryTypes := by simpa using helementary
      exact .of_keys [] rfl ⟨hname typeName hmem, by decide, by decide⟩
    · exact .of_keys ["name"] rfl (by decide)

/-- The element of a type has nothing in it that would depend on its place. -/
theorem element_typeNode (typeName : String) (depth : Nat) :
    (typeNode typeName).element depth = (typeNode typeName).element 0 := by
  unfold typeNode
  split
  · rfl
  · split
    · rfl
    · rfl

/-- A type is read again from the element that was written for it. -/
theorem readType?_typeNode (dataType : DataType) (depth : Nat) :
    Vendor.beckhoff.readType?
      (typeNameOf ((typeNode (Vendor.beckhoff.typeName dataType)).element depth)) =
        some dataType := by
  rw [element_typeNode]
  cases dataType <;> decide +kernel

/-! ## Variables -/

theorem isWritable_variableNode (vendor : Vendor) (tag : Tag) :
    (variableNode vendor tag).IsWritable := by
  constructor
  · cases (vendor.containerAddress tag.address).isEmpty with
    | true => exact .of_keys ["name"] rfl (by decide)
    | false => exact .of_keys ["name", "address"] rfl (by decide)
  · rw [Markup.allWritable_iff]
    intro node hnode
    rw [List.mem_append, List.mem_cons] at hnode
    rcases hnode with (rfl | hdefault) | hdocumentation
    · exact ⟨.of_keys [] rfl (by decide), isWritable_typeNode _, trivial⟩
    · unfold defaultNodes at hdefault
      split at hdefault
      · cases hdefault
      · obtain rfl := List.mem_singleton.mp hdefault
        exact ⟨.of_keys [] rfl (by decide), .of_keys ["value"] rfl (by decide), trivial⟩
    · unfold documentationNodes at hdocumentation
      split at hdocumentation
      · cases hdocumentation
      · obtain rfl := List.mem_singleton.mp hdocumentation
        exact ⟨.of_keys [] rfl (by decide), .of_keys ["xmlns"] rfl (by decide), trivial⟩

/-- The entry of a variable in a list of this scope. -/
def entryOfTag (tag : Tag) : Entry where
  name := tag.name
  typeName := typeNameOf ((typeNode (Vendor.beckhoff.typeName tag.dataType)).element 0)
  address := Vendor.beckhoff.containerAddress tag.address
  scope := tag.scope.word
  defaultValue := tag.defaultValue
  description := tag.description
  line := none

/-- The entry as it is read: only the description is trimmed here. -/
def carriedEntry (tag : Tag) : Entry :=
  { entryOfTag tag with description := Text.trimmed tag.description }

theorem describes_carriedEntry {tag : Tag} (htag : tag.Expressible .beckhoff) :
    (carriedEntry tag).Describes .beckhoff tag.carried where
  name_eq := rfl
  type_eq := readType?_typeNode tag.dataType 0
  address_eq := addressFromContainer_containerAddress htag.address_canonical
  scope_eq := by
    have hread : ∀ scope : Scope, Vendor.beckhoff.readScope? scope.word = some scope := by
      intro scope
      cases scope <;> decide +kernel
    have hblank : ∀ scope : Scope, Text.isAllBlank scope.word = false := by
      intro scope
      cases scope <;> decide
    have hscope : (carriedEntry tag).scope = tag.scope.word := rfl
    rw [Entry.readScope, hscope, hblank, if_neg (by decide), hread]
    rfl
  default_eq := rfl
  description_eq := Text.trimmed_trimmed tag.description

theorem carriedEntry_of_portable {tag : Tag} (htag : tag.Portable .beckhoff) :
    carriedEntry tag = entryOfTag tag := by
  rw [carriedEntry, htag.description_trimmed]
  rfl

theorem describes_entryOfTag {tag : Tag} (htag : tag.Portable .beckhoff) :
    (entryOfTag tag).Describes .beckhoff tag := by
  rw [← carriedEntry_of_portable htag]
  exact (describes_carried_iff htag).mp (describes_carriedEntry htag.expressible)

theorem defaultOf_variableNode (vendor : Vendor) (tag : Tag) (depth : Nat) :
    defaultOf ((variableNode vendor tag).element depth) = tag.defaultValue := by
  by_cases hdefault : tag.defaultValue = ""
  · by_cases hdescription : tag.description = "" <;>
      simp [defaultOf, variableNode, defaultNodes, documentationNodes, hdefault, hdescription,
        Node.element, Node.elements, Element.child?]
  · simp [defaultOf, variableNode, defaultNodes, hdefault, Node.element, Node.elements,
      Element.child?, Element.attribute?]

theorem descriptionOf_variableNode (vendor : Vendor) (tag : Tag) (depth : Nat) :
    descriptionOf ((variableNode vendor tag).element depth) = Text.trimmed tag.description := by
  by_cases hdescription : tag.description = ""
  · by_cases hdefault : tag.defaultValue = "" <;>
      simp [descriptionOf, variableNode, defaultNodes, documentationNodes, hdefault, hdescription,
        Node.element, Node.elements, Element.child?, Text.trimmed]
  · by_cases hdefault : tag.defaultValue = "" <;>
      simp [descriptionOf, variableNode, defaultNodes, documentationNodes, hdefault, hdescription,
        Node.element, Node.elements, Element.child?, Markup.Content.text]

theorem entryOf_variableNode (tag : Tag) (path : String) (index depth : Nat) :
    entryOf path tag.scope index ((variableNode .beckhoff tag).element depth) =
      .ok (carriedEntry tag) := by
  have hname : ((variableNode .beckhoff tag).element depth).attribute? "name" =
      some tag.name := by
    simp [variableNode, Node.element, Element.attribute?]
  have haddress : (((variableNode .beckhoff tag).element depth).attribute? "address").getD "" =
      Vendor.beckhoff.containerAddress tag.address := by
    by_cases hempty : Vendor.beckhoff.containerAddress tag.address = "" <;>
      simp [variableNode, hempty, Node.element, Element.attribute?, List.lookup_cons, List.lookup_nil]
  have htype : (((variableNode .beckhoff tag).element depth).child? "type").bind
      (·.children.head?) =
        some ((typeNode (Vendor.beckhoff.typeName tag.dataType)).element 0) := by
    -- The type lies two levels deeper than the variable.
    rw [← element_typeNode _ (depth + 2)]
    rfl
  unfold entryOf
  rw [hname, haddress, htype, defaultOf_variableNode, descriptionOf_variableNode]
  rfl

/-! ## Lists of variables -/

theorem listScope?_listName (scope : Scope) : listScope? (listName scope) = some scope := by
  cases scope <;> rfl

theorem entriesOf_listNode {run : Scope × List Tag}
    (hscope : ∀ tag ∈ run.2, tag.scope = run.1) (path : String) (depth : Nat) :
    entriesOf path run.1 ((listNode .beckhoff run).element depth) =
      .ok (run.2.map carriedEntry) := by
  have hchildren : ((listNode .beckhoff run).element depth).childrenNamed "variable" =
      run.2.map fun tag => (variableNode .beckhoff tag).element (depth + 1) := by
    rw [Element.childrenNamed]
    show (Node.elements (depth + 1) (run.2.map (variableNode .beckhoff))).filter _ = _
    rw [Markup.elements_eq_map, List.map_map]
    refine List.filter_eq_self.mpr ?_
    intro element helement
    obtain ⟨tag, -, rfl⟩ := List.mem_map.mp helement
    rfl
  rw [entriesOf, hchildren]
  refine mapM_zipIdx ?_ 0
  intro tag htag index
  dsimp only
  rw [← hscope tag htag]
  exact entryOf_variableNode tag path index _

/-- Lists side by side give the tags of all their runs. -/
theorem entriesAt_lists {lists : List (Scope × List Tag)}
    (hscope : ∀ run ∈ lists, ∀ tag ∈ run.2, tag.scope = run.1) (path : String)
    (index depth : Nat) :
    entriesAt path index (Node.elements depth (lists.map (listNode .beckhoff))) =
      .ok ((lists.flatMap Prod.snd).map carriedEntry) := by
  induction lists generalizing index with
  | nil => rfl
  | cons run lists ih =>
      have hrest := ih (fun other hother => hscope other (List.mem_cons_of_mem _ hother))
        (index + 1)
      have hname : ((listNode .beckhoff run).element depth).name = listName run.1 := rfl
      rw [List.map_cons, Node.elements, entriesAt, hrest, hname, listScope?_listName]
      dsimp only
      rw [entriesOf_listNode (hscope run List.mem_cons_self)]
      rw [List.flatMap_cons, List.map_append]
      rfl

/-! ## The document -/

theorem isWritable_document (date : String) (vendor : Vendor) (tags : List Tag) :
    (document date vendor tags).IsWritable := by
  have hname : ∀ scope, Markup.IsName (listName scope) := by
    intro scope
    cases scope <;> decide
  have hlists : Node.AllWritable ((runs tags).map (listNode vendor)) := by
    rw [Markup.allWritable_iff]
    intro node hnode
    obtain ⟨⟨scope, run⟩, -, rfl⟩ := List.mem_map.mp hnode
    refine ⟨.of_keys [] rfl ⟨hname scope, by decide, by decide⟩,
      (Markup.allWritable_iff _).mpr ?_⟩
    intro declared hdeclared
    obtain ⟨tag, -, rfl⟩ := List.mem_map.mp hdeclared
    exact isWritable_variableNode vendor tag
  have hlanguages : Node.AllWritable (["fbd", "ld", "sfc"].map languageNode) := by
    have hscaling : IsTag "scaling" [("x", "1"), ("y", "1")] :=
      .of_keys ["x", "y"] rfl (by decide)
    exact ⟨⟨.of_keys [] rfl (by decide), hscaling, trivial⟩,
      ⟨.of_keys [] rfl (by decide), hscaling, trivial⟩,
      ⟨.of_keys [] rfl (by decide), hscaling, trivial⟩, trivial⟩
  refine ⟨.of_keys ["xmlns"] rfl (by decide), ?_, ?_, ?_, ?_, trivial⟩
  · exact .of_keys ["companyName", "productName", "productVersion", "creationDateTime"] rfl
      (by decide)
  · exact ⟨.of_keys ["name"] rfl (by decide), ⟨.of_keys [] rfl (by decide), hlanguages⟩, trivial⟩
  · exact ⟨.of_keys [] rfl (by decide), .of_keys [] rfl (by decide),
      ⟨.of_keys [] rfl (by decide), ⟨.of_keys ["name", "pouType"] rfl (by decide),
        ⟨.of_keys [] rfl (by decide), hlists⟩, trivial⟩, trivial⟩, trivial⟩
  · exact ⟨.of_keys [] rfl (by decide), .of_keys [] rfl (by decide), trivial⟩

/-- The entries of a written document are those of the tags. -/
theorem entries_document_carried (date : String) (tags : List Tag) :
    entries ((document date .beckhoff tags).element 0) = .ok (tags.map carriedEntry) := by
  have hlists := fun path index depth =>
    entriesAt_lists (@scope_of_mem_runs tags) path index depth
  rw [flatMap_runs] at hlists
  have hname : ((document date .beckhoff tags).element 0).name = "project" := rfl
  unfold entries
  rw [hname, if_neg (fun hne => hne rfl)]
  simp [document, Node.element, Node.elements, languageNode, entriesIn, entriesAt, listScope?,
    hlists, ok_bind]

theorem entries_document (date : String) {tags : List Tag}
    (htags : ∀ tag ∈ tags, tag.Portable .beckhoff) :
    entries ((document date .beckhoff tags).element 0) = .ok (tags.map entryOfTag) := by
  rw [entries_document_carried,
    List.map_congr_left fun tag htag => carriedEntry_of_portable (htags tag htag)]

end PlcTags.Container.Plcopen
