import Mathlib.Data.List.Forall2
import PlcTags.Container.Codec
import PlcTags.Proofs.Result

/-!
# The parts of a container

Which records or elements of a container are tags is decided by where they stand and by
nothing else: the parts of a container are listed here without reading them.  If the
container can be decoded there is one entry for each part, in the same order, and it says
what the part says (`says_entries`).

A TIA tag may stand anywhere inside of the document (`mem_inside_iff`).  A PLCopen
variable stands in a list of variables that is in no other list (`mem_lists_iff`), and an
L5X tag in the first place for tags that the controller or a program has.
-/

namespace PlcTags

open Markup (Element)

/-! ## Elements inside of an element -/

namespace Markup.Element

/-- What holds of an element if it holds of its children holds of all elements. -/
@[elab_as_elim]
theorem children_induction {motive : Element → Prop}
    (step : ∀ element : Element, (∀ child ∈ element.children, motive child) → motive element) :
    ∀ element, motive element
  | ⟨name, attributes, children, text⟩ => step _ fun child hchild =>
    have hlt : sizeOf child < sizeOf (mk name attributes children text) := by
      have hmem : sizeOf child < sizeOf children := List.sizeOf_lt_of_mem hchild
      rw [mk.sizeOf_spec]
      omega
    children_induction step child
  termination_by element => sizeOf element
  decreasing_by exact hlt

mutual

/-- All elements inside of an element, in the order in which they begin. -/
def inside : Element → List Element
  | ⟨_, _, children, _⟩ => insideAll children

def insideAll : List Element → List Element
  | [] => []
  | child :: rest => child :: inside child ++ insideAll rest

end

theorem inside_eq (element : Element) : element.inside = insideAll element.children := by
  cases element
  rw [inside]

/-- An element stands somewhere inside of another. -/
inductive Inside (element : Element) : Element → Prop where
  | child {owner : Element} (h : element ∈ owner.children) : Inside element owner
  | deeper {owner child : Element} (hchild : child ∈ owner.children) (h : Inside element child) :
      Inside element owner

theorem mem_insideAll_iff {element : Element} {elements : List Element} :
    element ∈ insideAll elements ↔
      ∃ child ∈ elements, element = child ∨ element ∈ child.inside := by
  induction elements with
  | nil => simp [insideAll]
  | cons child rest ih =>
      simp only [insideAll, List.cons_append, List.mem_cons, List.mem_append, ih,
        exists_eq_or_imp, or_assoc]

/-- The elements inside of an element are those that stand somewhere inside of it. -/
theorem mem_inside_iff {element owner : Element} :
    element ∈ owner.inside ↔ Inside element owner := by
  constructor
  · intro h
    induction owner using children_induction with
    | step owner ih =>
        rw [inside_eq] at h
        obtain ⟨child, hchild, rfl | hdeeper⟩ := mem_insideAll_iff.mp h
        · exact .child hchild
        · exact .deeper hchild (ih child hchild hdeeper)
  · intro h
    induction h with
    | @child owner h =>
        rw [inside_eq]
        exact mem_insideAll_iff.mpr ⟨element, h, .inl rfl⟩
    | @deeper owner child hchild _ ih =>
        rw [inside_eq]
        exact mem_insideAll_iff.mpr ⟨child, hchild, .inr ih⟩

end Markup.Element

namespace Container

/-- What is read from a list of items, one by one, in order. -/
theorem forall₂_of_mapM {α β ε : Type} {read : α → Except ε β} {items : List α} {values : List β}
    (h : items.mapM read = .ok values) :
    List.Forall₂ (fun item value => read item = .ok value) items values := by
  induction items generalizing values with
  | nil =>
      obtain rfl := Except.ok.inj h
      exact .nil
  | cons item rest ih =>
      obtain ⟨value, others, hvalue, hothers, rfl⟩ := mapM_cons_eq_ok h
      exact .cons hvalue (ih hothers)

/-- The number of an item in its list has no part in what is said about the item. -/
theorem forall₂_of_mapM_zipIdx {α β ε : Type} {read : α × Nat → Except ε β} {items : List α}
    {values : List β} {first : Nat} (h : (items.zipIdx first).mapM read = .ok values) :
    List.Forall₂ (fun item value => ∃ index, read (item, index) = .ok value) items values := by
  induction items generalizing values first with
  | nil =>
      obtain rfl := Except.ok.inj h
      exact .nil
  | cons item rest ih =>
      rw [List.zipIdx_cons] at h
      obtain ⟨value, others, hvalue, hothers, rfl⟩ := mapM_cons_eq_ok h
      exact .cons ⟨first, hvalue⟩ (ih hothers)

/-! ## Records -/

namespace Csv

/-- A record of a table, with the columns of the table. -/
structure Part where
  columns : List (Option Table.Column)
  fields : List String
  deriving DecidableEq, Repr

/-- What a record says, whatever its line. -/
def Part.Says (part : Part) (entry : Entry) : Prop :=
  ∃ row, entryOf part.columns row part.fields = .ok entry

/-- The records after the header that are tags. -/
def parts (text : String) : List Part :=
  match Table.header? (Markup.withoutMarks text.toList) with
  | none => []
  | some (_, body) =>
    match Table.records (Table.delimiterOf (Table.cutLine body).1) (withoutMark body) with
    | [] => []
    | header :: records =>
      let columns := Table.columnsOf header.fields
      (records.filter fun record => isTagRecord columns record.fields).map fun record =>
        ⟨columns, record.fields⟩

theorem says_entries {text : String} {found : List Entry} (h : entries text = .ok found) :
    List.Forall₂ Part.Says (parts text) found := by
  unfold entries at h
  unfold parts
  cases hheader : Table.header? (Markup.withoutMarks text.toList) with
  | none =>
      rw [hheader] at h
      cases h
  | some found =>
      obtain ⟨headerLine, body⟩ := found
      rw [hheader] at h
      dsimp only at h ⊢
      cases hrecords : Table.records (Table.delimiterOf (Table.cutLine body).1)
          (withoutMark body) with
      | nil =>
          rw [hrecords] at h
          cases h
      | cons header records =>
          rw [hrecords] at h
          dsimp only at h ⊢
          split at h
          · cases h
          · rw [List.forall₂_map_left_iff]
            exact (forall₂_of_mapM h).imp fun record entry hread => ⟨_, hread⟩

end Csv

/-! ## Elements -/

namespace L5x

def Says (tag : Element) (entry : Entry) : Prop :=
  ∃ path usage index, entryOf path usage index tag = .ok entry

/-- The tags in the first place for tags that a controller or program has. -/
def tagsOf (owner : Element) : List Element :=
  ((owner.child? "Tags").map (·.childrenNamed "Tag")).getD []

/-- The programs in the first place for programs that a controller has. -/
def programsOf (controller : Element) : List Element :=
  ((controller.child? "Programs").map (·.childrenNamed "Program")).getD []

/-- The tags of the first controller, and then those of its programs. -/
def parts (root : Element) : List Element :=
  match root.child? "Controller" with
  | none => []
  | some controller => tagsOf controller ++ (programsOf controller).flatMap tagsOf

theorem says_entriesOf {path usage : String} {tags : Element} {found : List Entry}
    (h : entriesOf path usage tags = .ok found) :
    List.Forall₂ Says (tags.childrenNamed "Tag") found :=
  (forall₂_of_mapM_zipIdx h).imp fun _ _ ⟨index, hread⟩ => ⟨path, usage, index, hread⟩

theorem says_programEntries {path : String} {program : Element} {found : List Entry}
    (h : programEntries path program = .ok found) :
    List.Forall₂ Says (tagsOf program) found := by
  unfold programEntries at h
  unfold tagsOf
  cases htags : program.child? "Tags" with
  | none =>
      rw [htags] at h
      obtain rfl := Except.ok.inj h
      exact .nil
  | some tags =>
      rw [htags] at h
      exact says_entriesOf h

theorem says_programs {path : String} {programs : List Element} {found : List (List Entry)}
    (h : programs.mapM (programEntries path) = .ok found) :
    List.Forall₂ Says (programs.flatMap tagsOf) found.flatten := by
  induction programs generalizing found with
  | nil =>
      obtain rfl := Except.ok.inj h
      exact .nil
  | cons program rest ih =>
      obtain ⟨first, others, hfirst, hothers, rfl⟩ := mapM_cons_eq_ok h
      rw [List.flatMap_cons, List.flatten_cons]
      exact List.rel_append (says_programEntries hfirst) (ih hothers)

theorem says_entries {root : Element} {found : List Entry} (h : entries root = .ok found) :
    List.Forall₂ Says (parts root) found := by
  unfold entries at h
  split at h
  · cases h
  · unfold parts
    cases hcontroller : root.child? "Controller" with
    | none =>
        rw [hcontroller] at h
        cases h
    | some controller =>
        rw [hcontroller] at h
        dsimp only at h ⊢
        unfold tagsOf
        cases htags : controller.child? "Tags" with
        | none =>
            rw [htags, ok_bind] at h
            obtain ⟨«local», hlocal, h⟩ := exists_of_bind_eq_ok h
            obtain rfl := Except.ok.inj h
            exact says_programs hlocal
        | some tags =>
            rw [htags] at h
            obtain ⟨global, hglobal, h⟩ := exists_of_bind_eq_ok h
            obtain ⟨«local», hlocal, h⟩ := exists_of_bind_eq_ok h
            obtain rfl := Except.ok.inj h
            exact List.rel_append (says_entriesOf hglobal) (says_programs hlocal)

end L5x

namespace Tia

def Says (tag : Element) (entry : Entry) : Prop :=
  ∃ path, entryOf path tag = .ok entry

/-- The tags anywhere inside of the document. -/
def parts (root : Element) : List Element :=
  root.inside.filter fun element => element.name = tagName

theorem map_descendantsAt {name : String} {elements : List Element}
    (hchildren : ∀ child ∈ elements, ∀ path, (descendants name path child).map Prod.snd =
      child.inside.filter fun element => element.name = name) (path : String) (index : Nat) :
    (descendantsAt name path index elements).map Prod.snd =
      (Element.insideAll elements).filter fun element => element.name = name := by
  induction elements generalizing index with
  | nil => rfl
  | cons child rest ih =>
      have hrest := ih fun other hother => hchildren other (List.mem_cons_of_mem _ hother)
      rw [descendantsAt, Element.insideAll]
      simp only [List.map_append, hchildren child List.mem_cons_self, hrest, List.cons_append,
        List.filter_cons, List.filter_append, decide_eq_true_eq]
      split <;> rfl

/-- The paths are only there for messages. -/
theorem map_descendants (name path : String) (element : Element) :
    (descendants name path element).map Prod.snd =
      element.inside.filter fun element => element.name = name := by
  induction element using Element.children_induction generalizing path with
  | step element ih =>
      obtain ⟨_, _, children, _⟩ := element
      rw [descendants, Element.inside]
      exact map_descendantsAt (fun child hchild path => ih child hchild path) path 1

theorem says_entries {root : Element} {found : List Entry} (h : entries root = .ok found) :
    List.Forall₂ Says (parts root) found := by
  unfold entries at h
  split at h
  · cases h
  · split at h
    · cases h
    · unfold parts
      rw [← map_descendants tagName "Document", List.forall₂_map_left_iff]
      exact (forall₂_of_mapM h).imp fun found entry hread => ⟨found.1, hread⟩

end Tia

namespace Plcopen

def Says (declared : Element) (entry : Entry) : Prop :=
  ∃ path scope index, entryOf path scope index declared = .ok entry

mutual

/-- The lists of variables inside of an element that are in no other list there. -/
def lists : Element → List Element
  | ⟨_, _, children, _⟩ => listsAll children

def listsAll : List Element → List Element
  | [] => []
  | child :: rest =>
    (if (listScope? child.name).isSome then [child] else lists child) ++ listsAll rest

end

/-- The variables of all lists. -/
def parts (root : Element) : List Element :=
  (lists root).flatMap (·.childrenNamed "variable")

theorem says_entriesOf {path : String} {scope : Scope} {list : Element} {found : List Entry}
    (h : entriesOf path scope list = .ok found) :
    List.Forall₂ Says (list.childrenNamed "variable") found :=
  (forall₂_of_mapM_zipIdx h).imp fun _ _ ⟨index, hread⟩ => ⟨path, scope, index, hread⟩

/-- Of elements side by side, a list is read as it is, and anything else is searched. -/
theorem says_entriesAt {elements : List Element} {path : String} {index : Nat}
    {found : List Entry}
    (hchildren : ∀ child ∈ elements, ∀ path found, entriesIn path child = .ok found →
      List.Forall₂ Says (parts child) found)
    (h : entriesAt path index elements = .ok found) :
    List.Forall₂ Says ((listsAll elements).flatMap (·.childrenNamed "variable")) found := by
  induction elements generalizing index found with
  | nil =>
      obtain rfl := Except.ok.inj h
      exact .nil
  | cons child rest ih =>
      have hrest := fun {index found} => @ih index found fun other hother =>
        hchildren other (List.mem_cons_of_mem _ hother)
      rw [listsAll, List.flatMap_append]
      unfold entriesAt at h
      cases hscope : listScope? child.name with
      | some scope =>
          rw [hscope] at h
          obtain ⟨here, hhere, h⟩ := exists_of_bind_eq_ok h
          obtain ⟨more, hmore, h⟩ := exists_of_bind_eq_ok h
          obtain rfl := Except.ok.inj h
          refine List.rel_append ?_ (hrest hmore)
          rw [Option.isSome_some, if_pos rfl, List.flatMap_singleton]
          exact says_entriesOf hhere
      | none =>
          rw [hscope] at h
          obtain ⟨here, hhere, h⟩ := exists_of_bind_eq_ok h
          obtain ⟨more, hmore, h⟩ := exists_of_bind_eq_ok h
          obtain rfl := Except.ok.inj h
          refine List.rel_append ?_ (hrest hmore)
          rw [Option.isSome_none, if_neg Bool.false_ne_true]
          exact hchildren child List.mem_cons_self _ _ hhere

theorem says_entriesIn {element : Element} {path : String} {found : List Entry}
    (h : entriesIn path element = .ok found) : List.Forall₂ Says (parts element) found := by
  induction element using Element.children_induction generalizing path found with
  | step element ih =>
      obtain ⟨_, _, children, _⟩ := element
      rw [entriesIn] at h
      rw [parts, lists]
      exact says_entriesAt (fun child hchild _ _ hfound => ih child hchild hfound) h

theorem says_entries {root : Element} {found : List Entry} (h : entries root = .ok found) :
    List.Forall₂ Says (parts root) found := by
  unfold entries at h
  split at h
  · cases h
  · exact says_entriesIn h

/-- A list of variables stands inside of an element and in no other list there. -/
inductive Outermost (list : Element) : Element → Prop where
  | child {owner : Element} (h : list ∈ owner.children)
      (hlist : (listScope? list.name).isSome = true) : Outermost list owner
  | deeper {owner child : Element} (hchild : child ∈ owner.children)
      (hother : listScope? child.name = none) (h : Outermost list child) : Outermost list owner

theorem mem_listsAll_iff {list : Element} {elements : List Element} :
    list ∈ listsAll elements ↔ ∃ child ∈ elements,
      list = child ∧ (listScope? child.name).isSome = true ∨
        listScope? child.name = none ∧ list ∈ lists child := by
  induction elements with
  | nil => simp [listsAll]
  | cons child rest ih =>
      rw [listsAll, List.mem_append, ih, List.exists_mem_cons_iff]
      refine or_congr_left ?_
      cases hscope : listScope? child.name with
      | some scope => simp
      | none => simp

theorem mem_lists_iff {list owner : Element} : list ∈ lists owner ↔ Outermost list owner := by
  have hlists : ∀ owner : Element, lists owner = listsAll owner.children := by
    intro owner
    cases owner
    rw [lists]
  constructor
  · intro h
    induction owner using Element.children_induction with
    | step owner ih =>
        rw [hlists] at h
        obtain ⟨child, hchild, ⟨rfl, hlist⟩ | ⟨hother, hdeeper⟩⟩ := mem_listsAll_iff.mp h
        · exact .child hchild hlist
        · exact .deeper hchild hother (ih child hchild hdeeper)
  · intro h
    induction h with
    | @child owner h hlist =>
        rw [hlists]
        exact mem_listsAll_iff.mpr ⟨list, h, .inl ⟨rfl, hlist⟩⟩
    | @deeper owner child hchild hother _ ih =>
        rw [hlists]
        exact mem_listsAll_iff.mpr ⟨child, hchild, .inr ⟨hother, ih⟩⟩

end Plcopen

/-! ## Containers -/

/-- A record or an element that is a tag. -/
inductive Part where
  | record (part : Csv.Part)
  | element (element : Element)

/-- What a part of a vendor's container says. -/
def Part.Says (vendor : Vendor) (part : Part) (entry : Entry) : Prop :=
  match part, vendor with
  | .record part, _ => part.Says entry
  | .element tag, .rockwell => L5x.Says tag entry
  | .element tag, .siemens => Tia.Says tag entry
  | .element tag, .beckhoff => Plcopen.Says tag entry

/-- The elements of a vendor's document that are tags. -/
def elementParts (vendor : Vendor) (root : Element) : List Element :=
  match vendor with
  | .rockwell => L5x.parts root
  | .siemens => Tia.parts root
  | .beckhoff => Plcopen.parts root

/-- The parts of a container; there are none in what is not one. -/
def parts (vendor : Vendor) (format : Format) (bytes : ByteArray) : List Part :=
  match text bytes with
  | .error _ => []
  | .ok text =>
    match format with
    | .csv => (Csv.parts text).map .record
    | .xml =>
      match Markup.parse text with
      | .error _ => []
      | .ok root => (elementParts vendor root).map .element

theorem says_documentEntries {vendor : Vendor} {root : Element} {found : List Entry}
    (h : documentEntries vendor root = .ok found) :
    List.Forall₂ (Part.Says vendor) ((elementParts vendor root).map .element) found := by
  rw [List.forall₂_map_left_iff]
  cases vendor with
  | rockwell => exact L5x.says_entries h
  | siemens => exact Tia.says_entries h
  | beckhoff => exact Plcopen.says_entries h

/-- **No part is passed over.**  A container that can be decoded has one entry for each of
its parts, in their order, and nothing else. -/
theorem says_entries {vendor : Vendor} {format : Format} {bytes : ByteArray}
    {found : List Entry} (h : entries vendor format bytes = .ok found) :
    List.Forall₂ (Part.Says vendor) (parts vendor format bytes) found := by
  unfold entries at h
  unfold parts
  cases htext : text bytes with
  | error fault =>
      rw [htext] at h
      cases h
  | ok text =>
      rw [htext] at h
      cases format with
      | csv =>
          rw [List.forall₂_map_left_iff]
          exact Csv.says_entries h
      | xml =>
          dsimp only at h ⊢
          cases hroot : Markup.parse text with
          | error fault =>
              rw [hroot] at h
              cases h
          | ok root =>
              rw [hroot] at h
              exact says_documentEntries h

end Container

end PlcTags
