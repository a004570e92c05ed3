import PlcTags.Container.Codec
import PlcTags.Proofs.Container.Portable
import PlcTags.Proofs.Container.Sniff
import PlcTags.Proofs.Table.Attribute
import PlcTags.Proofs.Table.Header

/-!
# Tables keep tags

A table of portable tags, written in the layout of their vendor, is read back.

Reading goes through the layers of a table from the outside.  The lines in front
of the header and the header itself are those of the layout (`header_encode`),
and so are the columns.  What follows is a record for each tag
(`entries_encode_carried`), whose cells are the texts that were written without
the blanks at their ends (`readField_cells`).  The entry of such a record
describes what is carried of the tag (`entryOf_cells`).  Tables without columns for
usage and default have them in a list of attributes instead, which is a small
language within the cell (`attributesOf_attributesCell`).
-/

namespace PlcTags.Container.Csv

open Text
open Table (Column Layout layoutOf writeRecords recordLine readField)

/-! ## Cells -/

/-- The word of a scope has no character that would have to stand between apostrophes. -/
theorem writeValue_scopeWord (vendor : Vendor) (scope : Scope) :
    Table.writeValue (vendor.scopeWord scope).toList = (vendor.scopeWord scope).toList := by
  cases vendor <;> cases scope <;> rfl

theorem meantValue_scopeWord (vendor : Vendor) (scope : Scope) :
    Table.meantValue (vendor.scopeWord scope).toList = (vendor.scopeWord scope).toList := by
  cases vendor <;> cases scope <;> rfl

theorem scopeWord_ne_empty (vendor : Vendor) (scope : Scope) :
    (vendor.scopeWord scope).isEmpty = false := by
  cases vendor <;> cases scope <;> decide

/-- What the attributes of a tag say about its default. -/
def meantDefault (tag : Tag) : String :=
  String.ofList (Table.meantValue tag.defaultValue.toList)

/-- The attributes of a tag. -/
def attributesOfTag (tag : Tag) : List (String × String) :=
  ("Usage", tag.vendor.scopeWord tag.scope) ::
    if tag.defaultValue.isEmpty then [] else [("Default", meantDefault tag)]

theorem attributesOf_closing : Table.attributesOf [')'] = [] := by
  rw [Table.attributesOf_cons_of_not_word (by decide), Table.attributesOf_nil]

/-- The attribute that comes first, in front of a comma or the closing parenthesis. -/
theorem attributesOf_usage (vendor : Vendor) (scope : Scope) {d : Char} (hd : Table.EndsValue d)
    (rest : List Char) :
    Table.attributesOf ("(Usage := ".toList ++ ((vendor.scopeWord scope).toList ++ d :: rest)) =
      ("Usage", vendor.scopeWord scope) :: Table.attributesOf (d :: rest) := by
  have hname : ('U' :: "sage".toList).all isWordChar = true := by decide
  have hattribute := Table.attributesOf_attribute hname hd (vendor.scopeWord scope).toList rest
  rw [writeValue_scopeWord, meantValue_scopeWord, String.ofList_toList] at hattribute
  have hopen : "(Usage := ".toList ++ ((vendor.scopeWord scope).toList ++ d :: rest) =
      '(' :: 'U' :: ("sage".toList ++ ' ' :: ':' :: '=' :: ' ' ::
        ((vendor.scopeWord scope).toList ++ d :: rest)) := rfl
  rw [hopen, Table.attributesOf_cons_of_not_word (by decide), hattribute]
  rfl

theorem attributesOf_attributesCell (tag : Tag) :
    Table.attributesOf (attributesCell tag).toList = attributesOfTag tag := by
  rw [attributesCell, attributesOfTag]
  -- An empty default is left out, and then the usage stands in front of the parenthesis.
  by_cases hempty : tag.defaultValue.isEmpty = true
  · rw [if_pos hempty, if_pos hempty, String.append_empty, String.toList_append,
      String.toList_append, List.append_assoc]
    show Table.attributesOf (_ ++ (_ ++ ')' :: [])) = _
    rw [attributesOf_usage _ _ (.inr rfl), attributesOf_closing]
  · have hname : ('D' :: "efault".toList).all isWordChar = true := by decide
    have hattribute := Table.attributesOf_attribute hname (.inr rfl : Table.EndsValue ')')
      tag.defaultValue.toList []
    rw [if_neg hempty, if_neg hempty]
    have htext : ("(Usage := " ++ tag.vendor.scopeWord tag.scope ++
        (", Default := " ++ String.ofList (Table.writeValue tag.defaultValue.toList)) ++
          ")").toList = "(Usage := ".toList ++ ((tag.vendor.scopeWord tag.scope).toList ++
            ',' :: ' ' :: 'D' :: ("efault".toList ++ ' ' :: ':' :: '=' :: ' ' ::
              (Table.writeValue tag.defaultValue.toList ++ [')']))) := by
      simp
    rw [htext, attributesOf_usage _ _ (.inl rfl), Table.attributesOf_cons_of_not_word (by decide),
      Table.attributesOf_cons_of_not_word (by decide), hattribute, attributesOf_closing]
    rfl

/-- A text between parentheses has no blanks at its ends. -/
theorem trimmed_attributesCell (tag : Tag) : Trimmed (attributesCell tag) := by
  apply trimmed_of_toList
  rw [attributesCell, String.toList_append, String.toList_append, String.toList_append]
  exact trim_of_ends (c := '(') _ (by decide) (by decide)

/-! ## Records -/

/-- The record of a tag. -/
def cells (vendor : Vendor) (tag : Tag) : List (List Char) :=
  (layoutOf vendor).kinds.map fun column => (cell vendor tag column).toList

/-- The fields of a record lose the blanks at their ends. -/
theorem readField_cells (vendor : Vendor) (tag : Tag) :
    (cells vendor tag).map readField =
      (layoutOf vendor).kinds.map fun column => trimmed (cell vendor tag column) := by
  rw [cells, List.map_map]
  rfl

theorem isTagRecord_cells {vendor : Vendor} {tag : Tag} (htag : tag.Expressible vendor) :
    isTagRecord ((layoutOf vendor).kinds.map some)
      ((layoutOf vendor).kinds.map fun column => trimmed (cell vendor tag column)) = true := by
  have hkind : ["tag", "alias"].contains (trimmed "TAG").toLower = true := by decide +kernel
  have hname : Column.name ∈ (layoutOf vendor).kinds := by cases vendor <;> decide
  -- The name is never blank, so no record of a tag counts as a blank line.
  have hfilled : ((layoutOf vendor).kinds.map fun column =>
      trimmed (cell vendor tag column)).all String.isEmpty = false := by
    rw [List.all_eq_false]
    refine ⟨trimmed tag.name, List.mem_map.mpr ⟨.name, hname, rfl⟩, ?_⟩
    simpa using htag.trimmed_name_ne
  rw [isTagRecord, hfilled, Table.cell?_map]
  split
  · rename_i kind heq
    split at heq
    · cases heq
      exact hkind
    · cases heq
  · rfl

theorem getD_cell? (vendor : Vendor) (tag : Tag) (column : Column) :
    (Table.cell? ((layoutOf vendor).kinds.map some)
      ((layoutOf vendor).kinds.map fun column => trimmed (cell vendor tag column)) column).getD
        "" =
        if column ∈ (layoutOf vendor).kinds then trimmed (cell vendor tag column) else "" := by
  rw [Table.cell?_map]
  split <;> rfl

/-- Usage and default of a tag from its attributes. -/
theorem attribute?_attributesOfTag (tag : Tag) :
    attribute? (attributesOfTag tag) "Usage" = some (tag.vendor.scopeWord tag.scope) ∧
      (attribute? (attributesOfTag tag) "Default").getD "" = meantDefault tag := by
  have hother : ("Usage".toLower == "Default".toLower) = false := by decide +kernel
  constructor
  · simp [attribute?, attributesOfTag]
  · rw [attribute?, attributesOfTag, List.find?_cons_of_neg (by rw [hother]; decide)]
    by_cases hempty : tag.defaultValue.isEmpty = true
    · rw [if_pos hempty, meantDefault, String.isEmpty_iff.mp hempty]
      rfl
    · rw [if_neg hempty]
      simp

theorem trimmed_meantDefault (tag : Tag) : trimmed (meantDefault tag) = trimmed tag.defaultValue := by
  rw [trimmed, meantDefault, String.toList_ofList, Table.trim_meantValue]
  rfl

/-- The entry of a tag's record. -/
def carriedEntry (vendor : Vendor) (tag : Tag) (row : Nat) : Entry where
  name := trimmed tag.name
  typeName := vendor.typeName tag.dataType
  address := vendor.containerAddress tag.address
  scope := vendor.scopeWord tag.scope
  defaultValue :=
    match vendor with
    | .rockwell => meantDefault tag
    | .siemens | .beckhoff => trimmed tag.defaultValue
  description := trimmed tag.description
  line := some row

theorem describes_carriedEntry {vendor : Vendor} {tag : Tag} (htag : tag.Expressible vendor)
    (row : Nat) : (carriedEntry vendor tag row).Describes vendor tag.carried where
  name_eq := trimmed_trimmed tag.name
  type_eq := readType?_typeName vendor tag.dataType
  address_eq := addressFromContainer_containerAddress htag.address_canonical
  scope_eq := readScope_of_scope_eq rfl
  default_eq := by
    cases vendor with
    | rockwell => exact trimmed_meantDefault tag
    | siemens => exact trimmed_trimmed tag.defaultValue
    | beckhoff => exact trimmed_trimmed tag.defaultValue
  description_eq := trimmed_trimmed tag.description

theorem entryOf_cells {vendor : Vendor} {tag : Tag} (htag : tag.Expressible vendor)
    (row : Nat) :
    entryOf ((layoutOf vendor).kinds.map some) row
      ((layoutOf vendor).kinds.map fun column => trimmed (cell vendor tag column)) =
        .ok (carriedEntry vendor tag row) := by
  have hname : (trimmed tag.name).isEmpty = false := by simpa using htag.trimmed_name_ne
  have htype : trimmed (vendor.typeName tag.dataType) = vendor.typeName tag.dataType :=
    trimmed_typeName vendor tag.dataType
  have haddress : trimmed (vendor.containerAddress tag.address) =
      vendor.containerAddress tag.address := trimmed_containerAddress htag.address_canonical
  have hscope : trimmed (vendor.scopeWord tag.scope) = vendor.scopeWord tag.scope :=
    trimmed_scopeWord vendor tag.scope
  unfold entryOf
  simp only [getD_cell?]
  -- Only Rockwell tables keep usage and default in the list of attributes.
  cases vendor with
  | rockwell =>
      have hcell : trimmed (attributesCell { tag with vendor := .rockwell }) =
          attributesCell tag := by
        rw [trimmed_attributesCell, ← htag.vendor_eq]
      obtain ⟨husage, hdefault⟩ := attribute?_attributesOfTag tag
      simp [layoutOf, Layout.kinds, cell, hname, carriedEntry, hcell, htype, haddress,
        attributesOf_attributesCell, husage, hdefault, htag.vendor_eq]
  | siemens =>
      simp [layoutOf, Layout.kinds, cell, hname, carriedEntry, htype, haddress, hscope,
        scopeWord_ne_empty, Table.attributesOf_nil, attribute?]
  | beckhoff =>
      simp [layoutOf, Layout.kinds, cell, hname, carriedEntry, htype, haddress, hscope,
        scopeWord_ne_empty, Table.attributesOf_nil, attribute?]

theorem entriesOf_cons {columns : List (Option Column)} {headerLine : Nat}
    {record : Table.Record} {records : List Table.Record} {entry : Entry} {entries : List Entry}
    (hrecord : isTagRecord columns record.fields = true)
    (hentry : entryOf columns (record.line + headerLine - 1) record.fields = .ok entry)
    (hentries : entriesOf columns headerLine records = .ok entries) :
    entriesOf columns headerLine (record :: records) = .ok (entry :: entries) := by
  rw [entriesOf] at hentries ⊢
  have hfilter : (record :: records).filter (fun record => isTagRecord columns record.fields) =
      record :: records.filter fun record => isTagRecord columns record.fields :=
    List.filter_cons_of_pos hrecord
  rw [hfilter, List.mapM_cons, hentry, hentries]
  rfl

/-- The records of tags are entries that describe what is carried of them. -/
theorem entriesOf_readBack {vendor : Vendor} {tags : List Tag}
    (htags : ∀ tag ∈ tags, tag.Expressible vendor) (headerLine lineFeeds : Nat) :
    ∃ entries, entriesOf ((layoutOf vendor).kinds.map some) headerLine
        (Table.readBack lineFeeds (tags.map (cells vendor))) = .ok entries ∧
      List.Forall₂ (fun tag entry => Entry.Describes vendor tag.carried entry) tags entries := by
  induction tags generalizing lineFeeds with
  | nil => exact ⟨[], rfl, .nil⟩
  | cons tag tags ih =>
      have htag := htags tag List.mem_cons_self
      obtain ⟨entries, hentries, hdescribes⟩ :=
        ih (fun other hother => htags other (List.mem_cons_of_mem _ hother))
          (lineFeeds + (cells vendor tag).flatten.count '\n' + 1)
      refine ⟨carriedEntry vendor tag (lineFeeds + 1 + headerLine - 1) :: entries, ?_,
        .cons (describes_carriedEntry htag _) hdescribes⟩
      rw [List.map_cons, Table.readBack, readField_cells]
      exact entriesOf_cons (isTagRecord_cells htag) (entryOf_cells htag _) hentries

/-! ## The whole table -/

/-- A table from its header on: the header and a record for each tag. -/
def body (vendor : Vendor) (tags : List Tag) : List Char :=
  recordLine (layoutOf vendor).delimiter (layoutOf vendor).headers ++
    '\n' :: writeRecords (layoutOf vendor).delimiter (tags.map (cells vendor))

theorem body_eq_writeRecords (vendor : Vendor) (tags : List Tag) :
    body vendor tags = writeRecords (layoutOf vendor).delimiter
      ((layoutOf vendor).headers :: tags.map (cells vendor)) := by
  rw [body, writeRecords, writeRecords, List.flatMap_cons, ← Table.recordLine_append]
  simp

theorem encode_eq (vendor : Vendor) (tags : List Tag) :
    encode vendor tags =
      String.ofList ((layoutOf vendor).lines.flatMap (· ++ ['\n']) ++ body vendor tags) := by
  have hlines : writeRecords (layoutOf vendor).delimiter
      ((layoutOf vendor).preamble.map (·.map String.toList)) =
        (layoutOf vendor).lines.flatMap (· ++ ['\n']) := by
    rw [Layout.lines, List.flatMap_map, writeRecords, List.flatMap_map]
    exact List.flatMap_congr fun fields _ => (Table.recordLine_append _ _).symm
  have hrows : (rows vendor tags).map (·.map String.toList) =
      (layoutOf vendor).preamble.map (·.map String.toList) ++
        (layoutOf vendor).headers :: tags.map (cells vendor) := by
    simp [rows, Layout.headers, cells, Layout.kinds, Function.comp_def]
  rw [encode, hrows, body_eq_writeRecords, ← hlines]
  simp [writeRecords]

/-- A written table begins with a letter. -/
theorem exists_encode_eq_cons (vendor : Vendor) (tags : List Tag) :
    ∃ c rest, encode vendor tags = String.ofList (c :: rest) ∧ c.isAlpha = true := by
  obtain ⟨c, rest, hfront, hc⟩ :=
    (Table.isReadable_layoutOf vendor).front_letter.exists_cons
  refine ⟨c, rest ++ '\n' ::
    writeRecords (layoutOf vendor).delimiter (tags.map (cells vendor)), ?_, hc⟩
  rw [Layout.front] at hfront
  rw [encode_eq, body, ← List.append_assoc, hfront, List.cons_append]

theorem withoutMarks_of_letter {c : Char} (hc : c.isAlpha = true) (rest : List Char) :
    Markup.withoutMarks (c :: rest) = c :: rest := by
  have hmark : ¬ c.toNat = 0xFEFF := by
    have := (Format.toNat_of_isAlpha hc).2
    omega
  simp [Markup.withoutMarks, hmark]

theorem withoutMark_of_letter {c : Char} (hc : c.isAlpha = true) (rest : List Char) :
    withoutMark (c :: rest) = c :: rest := by
  have hmark : ¬ c.toNat = 0xFEFF := by
    have := (Format.toNat_of_isAlpha hc).2
    omega
  simp [withoutMark, hmark]

theorem header?_encode (vendor : Vendor) (tags : List Tag) :
    Table.header? (Markup.withoutMarks (encode vendor tags).toList) =
      some (1 + (layoutOf vendor).lines.length, body vendor tags) := by
  have hlayout := Table.isReadable_layoutOf vendor
  obtain ⟨c, rest, hencode, hc⟩ := exists_encode_eq_cons vendor tags
  have htext : Markup.withoutMarks (encode vendor tags).toList =
      (layoutOf vendor).lines.flatMap (· ++ ['\n']) ++ body vendor tags := by
    rw [hencode, String.toList_ofList, withoutMarks_of_letter hc,
      ← @String.toList_ofList (c :: rest), ← hencode, encode_eq, String.toList_ofList]
  rw [htext]
  exact Table.headerFrom_lines hlayout.lines hlayout.header hlayout.not_preamble _ _

/-- The records of the body, with the header. -/
theorem records_body (vendor : Vendor) (tags : List Tag) :
    Table.records (layoutOf vendor).delimiter (withoutMark (body vendor tags)) =
      Table.readBack 0 ((layoutOf vendor).headers :: tags.map (cells vendor)) := by
  have hlayout := Table.isReadable_layoutOf vendor
  obtain ⟨c, rest, hheader, hc⟩ := hlayout.header_letter.exists_cons
  have hbody : withoutMark (body vendor tags) = body vendor tags := by
    rw [body, hheader, List.cons_append, withoutMark_of_letter hc]
  have hne : ∀ fields ∈ (layoutOf vendor).headers :: tags.map (cells vendor), fields ≠ [] := by
    intro fields hfields
    rcases List.mem_cons.mp hfields with rfl | hmem
    · cases vendor <;> decide
    · obtain ⟨tag, -, rfl⟩ := List.mem_map.mp hmem
      cases vendor <;> simp [cells, layoutOf, Layout.kinds]
  rw [hbody, body_eq_writeRecords, Table.records_writeRecords hlayout.delimiter hne]

theorem requiredColumns_of_layout (vendor : Vendor) :
    (requiredColumns.find? fun (column, _) =>
      !((layoutOf vendor).kinds.map some).contains (some column)) = none := by
  cases vendor <;> decide

/-- The entries of a written table describe what is carried of the tags. -/
theorem entries_encode_carried {vendor : Vendor} {tags : List Tag}
    (htags : ∀ tag ∈ tags, tag.Expressible vendor) :
    ∃ entries, Csv.entries (encode vendor tags) = .ok entries ∧
      List.Forall₂ (fun tag entry => Entry.Describes vendor tag.carried entry) tags entries := by
  have hlayout := Table.isReadable_layoutOf vendor
  obtain ⟨entries, hentries, hdescribes⟩ := entriesOf_readBack htags
    (1 + (layoutOf vendor).lines.length)
    (0 + (layoutOf vendor).headers.flatten.count '\n' + 1)
  refine ⟨entries, ?_, hdescribes⟩
  have hdelimiter : Table.delimiterOf (Table.cutLine (body vendor tags)).1 =
      (layoutOf vendor).delimiter := by
    rw [body, Table.cutLine_append hlayout.header.no_lineFeed, hlayout.delimiterOf]
  unfold Csv.entries
  simp only [header?_encode, hdelimiter, records_body, Table.readBack, hlayout.columnsOf,
    requiredColumns_of_layout]
  exact hentries

/-- The entries of a written table of portable tags describe these. -/
theorem entries_encode {vendor : Vendor} {tags : List Tag}
    (htags : ∀ tag ∈ tags, tag.Portable vendor) :
    ∃ entries, Csv.entries (encode vendor tags) = .ok entries ∧
      List.Forall₂ (Entry.Describes vendor) tags entries := by
  obtain ⟨entries, hentries, hdescribes⟩ :=
    entries_encode_carried fun tag htag => (htags tag htag).expressible
  exact ⟨entries, hentries, describes_of_carried htags hdescribes⟩

end PlcTags.Container.Csv

namespace PlcTags.Container

/-- **Tables keep tags.**  The table of portable tags of a vendor is read back without a
problem, tag by tag and in order, and its bytes look like a table. -/
theorem decode_encode_csv (date : String) (vendor : Vendor) (tags : List Tag)
    (htags : ∀ tag ∈ tags, tag.Portable vendor) :
    Format.sniff (encode date vendor .csv tags).toUTF8 = .csv ∧
      ∃ decoded, decode vendor .csv (encode date vendor .csv tags).toUTF8 = .ok decoded ∧
        decoded.issues = [] ∧ List.Forall₂ Tag.Equivalent tags decoded.tags := by
  constructor
  · obtain ⟨c, rest, hencode, hc⟩ := Csv.exists_encode_eq_cons vendor tags
    show Format.sniff (Csv.encode vendor tags).toUTF8 = .csv
    rw [hencode]
    exact Format.sniff_of_letter hc rest
  · obtain ⟨entries, hentries, hdescribes⟩ := Csv.entries_encode htags
    refine ⟨Decoded.ofEntries vendor entries, ?_, ofEntries_of_describes htags hdescribes⟩
    show (Container.entries vendor .csv (Csv.encode vendor tags).toUTF8).map
      (Decoded.ofEntries vendor) = _
    rw [Container.entries, Container.text, Text.Utf8.decode_toUTF8]
    simp only [hentries]
    rfl

theorem decode_encode_csv_awkward :
    (∀ tag ∈ [awkwardTag, awkwardTag], tag.Portable .rockwell) ∧
      Format.sniff (encode "" .rockwell .csv [awkwardTag, awkwardTag]).toUTF8 = .csv ∧
        ∃ decoded,
          decode .rockwell .csv (encode "" .rockwell .csv [awkwardTag, awkwardTag]).toUTF8 =
              .ok decoded ∧
            decoded.issues = [] ∧
              List.Forall₂ Tag.Equivalent [awkwardTag, awkwardTag] decoded.tags := by
  have htags : ∀ tag ∈ [awkwardTag, awkwardTag], tag.Portable .rockwell := by
    simpa using portable_awkwardTag
  exact ⟨htags, decode_encode_csv "" .rockwell [awkwardTag, awkwardTag] htags⟩

end PlcTags.Container
