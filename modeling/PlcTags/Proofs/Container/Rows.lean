import Mathlib.Data.List.TakeWhile
import PlcTags.Container.Codec
import PlcTags.Proofs.Result
import PlcTags.Proofs.Table.Header

/-!
# The rows of a table

Every text in which a header is found is a table: a header and records behind it, each of them
at a place in the text (`Csv.IsTable`, `Csv.exists_isTable`).  What is decoded of it, and with
which rows, is read off from these places (`Csv.IsTable.decode_eq`).

Two things are told apart here.  A record is reported with the row on which it is *sought*, and
that is its line only if no line feed is passed over in front of it, be it that of a blank line
or one that follows a carriage return (`decode_rows`).  And a quote that is never closed takes
the rest of the text into its field without being reported at all (`decode_unclosed`).
-/

namespace PlcTags

/-! ## Lines -/

/-- The problem of another line. -/
def Diagnostic.onLine (diagnostic : Diagnostic) (line : Nat) : Diagnostic :=
  { diagnostic with line := some line }

namespace Container

/-- The entry of another line. -/
def Entry.onLine (entry : Entry) (line : Nat) : Entry :=
  { entry with line := some line }

/-- An entry is read alike on every line, and its problems are those of its line. -/
theorem Entry.read_onLine (entry : Entry) (vendor : Vendor) (line : Nat) :
    (entry.onLine line).read vendor =
      ((entry.read vendor).1, (entry.read vendor).2.map fun issue => issue.onLine line) := by
  have hscope : (entry.onLine line).readScope vendor =
      ((entry.readScope vendor).1,
        (entry.readScope vendor).2.map fun issue => issue.onLine line) := by
    unfold readScope
    have hblank : Text.isAllBlank (entry.onLine line).scope = Text.isAllBlank entry.scope := rfl
    have hread : vendor.readScope? (entry.onLine line).scope = vendor.readScope? entry.scope := rfl
    rw [hblank, hread]
    split
    · rfl
    · cases vendor.readScope? entry.scope <;> rfl
  have htype : vendor.readType? (entry.onLine line).typeName = vendor.readType? entry.typeName :=
    rfl
  unfold read
  rw [hscope, htype]
  cases vendor.readType? entry.typeName <;> rfl

/-- What entries amount to does not depend on their lines, but for the lines of the problems. -/
theorem Decoded.ofEntries_onLine {α : Type} (vendor : Vendor) (items : List α)
    (entry : α → Entry) (row : α → Nat) :
    ofEntries vendor (items.map fun item => (entry item).onLine (row item)) =
      { tags := items.filterMap fun item => ((entry item).read vendor).1
        issues := items.flatMap fun item =>
          ((entry item).read vendor).2.map fun issue => issue.onLine (row item) } := by
  rw [ofEntries, List.filterMap_map, List.flatMap_map]
  simp only [Function.comp_def, Entry.read_onLine]

theorem map_onLine_eq_iff {issues : List Diagnostic} {line other : Nat} :
    (issues.map fun issue => issue.onLine line) = (issues.map fun issue => issue.onLine other) ↔
      (issues ≠ [] → line = other) := by
  cases issues with
  | nil => exact ⟨fun _ hne => absurd rfl hne, fun _ => rfl⟩
  | cons issue rest =>
      constructor
      · intro h _
        have hline := congrArg Diagnostic.line (List.cons.inj h).1
        exact Option.some.inj hline
      · intro h
        rw [h (List.cons_ne_nil issue rest)]

/-- Problems that are put on lines one after the other tell the lines of all that have some. -/
theorem flatMap_onLine_eq_iff {α : Type} {items : List α} {issues : α → List Diagnostic}
    {row other : α → Nat} :
    (items.flatMap fun item => (issues item).map fun issue => issue.onLine (row item)) =
        (items.flatMap fun item => (issues item).map fun issue => issue.onLine (other item)) ↔
      ∀ item ∈ items, issues item ≠ [] → row item = other item := by
  induction items with
  | nil => exact ⟨fun _ => List.forall_mem_nil _, fun _ => rfl⟩
  | cons item rest ih =>
      rw [List.flatMap_cons, List.flatMap_cons, List.forall_mem_cons, ← ih, ← map_onLine_eq_iff]
      constructor
      · intro h
        exact List.append_inj h (by rw [List.length_map, List.length_map])
      · rintro ⟨hfirst, hrest⟩
        rw [hfirst, hrest]

namespace Csv

open Table (Cell Located Stands Written recordsFrom columnsOf)

/-! ## Tables -/

/-- A text is a table with this header and these records behind it. -/
inductive IsTable (text : List Char) (header : Located) (records : List Located) : Prop
  | intro {line : Nat} {front body : List Char}
      (found : Table.header? (Markup.withoutMarks text) = some (line, body))
      (split : text = front ++ withoutMark body)
      (stands : Stands (Table.delimiterOf (Table.cutLine body).1) front (withoutMark body)
        (header :: records))

theorem exists_withoutMark (text : List Char) :
    ∃ mark, text = mark ++ withoutMark text ∧ mark.count '\n' = 0 := by
  cases text with
  | nil => exact ⟨[], rfl, rfl⟩
  | cons c rest =>
      by_cases hmark : c.toNat = 0xFEFF
      · have hfeed : c ≠ '\n' := by
          rintro rfl
          exact absurd hmark (by decide)
        refine ⟨[c], by rw [withoutMark, if_pos hmark]; rfl, ?_⟩
        rw [List.count_cons_of_ne hfeed, List.count_nil]
      · exact ⟨[], by rw [withoutMark, if_neg hmark]; rfl, rfl⟩

theorem exists_withoutMarks (text : List Char) :
    ∃ marks, text = marks ++ Markup.withoutMarks text ∧ marks.count '\n' = 0 := by
  refine ⟨text.takeWhile fun c => c.toNat == 0xFEFF, List.takeWhile_append_dropWhile.symm, ?_⟩
  refine List.count_eq_zero.mpr fun hmem => ?_
  exact absurd (List.mem_takeWhile_imp hmem) (by decide)

/-- Each record of a table stands in its text: behind what stands in front of it, and behind the
ends of lines that are passed over. -/
theorem IsTable.exists_of_mem {text : List Char} {header record : Located}
    {records : List Located} (h : IsTable text header records)
    (hrecord : record ∈ header :: records) :
    ∃ delimiter raw rest, text = record.front ++ record.passed ++ raw ++ rest ∧
      ¬ Table.EndsRecord raw ∧ Written delimiter rest record.cells raw := by
  obtain ⟨found, split, stands⟩ := h
  obtain ⟨raw, rest, hsplit, hraw⟩ := stands.exists_of_mem hrecord
  exact ⟨_, raw, rest, split.trans hsplit, hraw⟩

/-- What stands in front of a header has as many line feeds as its number says. -/
theorem exists_front {text body : List Char} {line : Nat}
    (h : Table.header? (Markup.withoutMarks text) = some (line, body)) :
    ∃ front, text = front ++ withoutMark body ∧ line = front.count '\n' + 1 := by
  obtain ⟨marks, hmarks, hnone⟩ := exists_withoutMarks text
  obtain ⟨lines, hlines, hline⟩ := Table.headerFrom_eq_some h
  obtain ⟨mark, hmark, hno⟩ := exists_withoutMark body
  refine ⟨marks ++ lines ++ mark, ?_, ?_⟩
  · rw [List.append_assoc, ← hmark, List.append_assoc, ← hlines]
    exact hmarks
  · rw [hline, List.count_append, List.count_append, hnone, hno]
    omega

/-! ## What is read from them -/

/-- The records that describe a tag. -/
def tagRecords (header : Located) (records : List Located) : List Located :=
  records.filter fun record => isTagRecord (columnsOf header.fields) record.fields

/-- The first of the columns that every table must have that this one does not have. -/
def missing? (header : Located) : Option (Table.Column × String) :=
  requiredColumns.find? fun (column, _) => !(columnsOf header.fields).contains (some column)

/-- The entries of a table whose rows are numbered in some way. -/
def entriesBy (row : Located → Nat) (header : Located) (records : List Located) :
    Except Error (List Entry) :=
  match missing? header with
  | some (_, label) => .error ⟨.row (row header), .missingColumn label⟩
  | none => (tagRecords header records).mapM fun record =>
      entryOf (columnsOf header.fields) (row record) record.fields

theorem entriesOf_succ (columns : List (Option Table.Column)) (lines : Nat)
    (records : List Table.Record) :
    entriesOf columns (lines + 1) records =
      ((records.map (Table.Record.shift lines)).filter fun record =>
        isTagRecord columns record.fields).mapM fun record =>
          entryOf columns record.line record.fields := by
  rw [entriesOf, List.filter_map, List.mapM_map]
  rfl

variable {text : String} {header record : Located} {records : List Located}

/-- **The rows of a table are numbered by the lines on which they are sought.** -/
theorem IsTable.entries_eq (h : IsTable text.toList header records) :
    entries text = entriesBy Located.sought header records := by
  obtain @⟨line, front, body, found, split, stands⟩ := h
  have hline : line = front.count '\n' + 1 := by
    obtain ⟨lines, hsplit, hline⟩ := exists_front found
    rw [hline, List.append_cancel_right (hsplit.symm.trans split)]
  have hread := Table.records_of_stands (Table.isDelimiter_delimiterOf _) stands
  unfold entries
  rw [found]
  dsimp only
  cases hrecords : Table.records (Table.delimiterOf (Table.cutLine body).1) (withoutMark body) with
  | nil =>
      rw [hrecords] at hread
      cases hread
  | cons first rest =>
      rw [hrecords] at hread
      obtain ⟨hfirst, hrest⟩ := List.cons.inj hread
      have hfields : first.fields = header.fields := congrArg Table.Record.fields hfirst
      have hentries : entriesOf (columnsOf header.fields) line rest =
          (tagRecords header records).mapM fun record =>
            entryOf (columnsOf header.fields) record.sought record.fields := by
        rw [hline, entriesOf_succ, hrest, List.filter_map, List.mapM_map]
        rfl
      have hsought : header.sought = line := by
        rw [Located.sought, stands.front_eq, hline]
      rw [entriesBy, missing?, ← hentries, hsought]
      exact hfields ▸ rfl

/-- Every text is a table unless no header is found in it. -/
theorem exists_isTable (text : String) :
    entries text = .error ⟨.document, .noHeader⟩ ∨
      ∃ header records, IsTable text.toList header records := by
  cases hfound : Table.header? (Markup.withoutMarks text.toList) with
  | none =>
      rw [entries, hfound]
      exact .inl rfl
  | some found =>
      obtain ⟨line, body⟩ := found
      obtain ⟨front, hsplit, -⟩ := exists_front hfound
      obtain ⟨located, hstands⟩ := Table.exists_stands
        (Table.delimiterOf (Table.cutLine body).1) front (withoutMark body)
      cases located with
      | nil =>
          have hnone : Table.records (Table.delimiterOf (Table.cutLine body).1)
              (withoutMark body) = [] :=
            List.map_eq_nil_iff.mp
              (Table.records_of_stands (Table.isDelimiter_delimiterOf _) hstands)
          rw [entries, hfound]
          dsimp only
          rw [hnone]
          exact .inl rfl
      | cons header records => exact .inr ⟨header, records, .intro hfound hsplit hstands⟩

/-! ## Reading records -/

/-- A record without a name. -/
def isNameless (header record : Located) : Bool :=
  ((Table.cell? (columnsOf header.fields) record.fields .name).getD "").isEmpty

/-- A record has an entry unless it has no name, and its line is only noted there. -/
theorem exists_entryOf (header record : Located) :
    ∃ entry : Entry, ∀ row, entryOf (columnsOf header.fields) row record.fields =
      if isNameless header record then .error ⟨.row row, .emptyName⟩
      else .ok (entry.onLine row) := by
  unfold entryOf
  dsimp only
  by_cases hname : isNameless header record = true
  · refine ⟨⟨"", "", "", "", "", "", none⟩, fun row => ?_⟩
    rw [if_pos hname]
    exact if_pos hname
  · exact ⟨⟨_, _, _, _, _, _, none⟩, fun row => (if_neg hname).trans (if_neg hname).symm⟩

theorem exists_entries (header : Located) :
    ∃ entry : Located → Entry, ∀ record row,
      entryOf (columnsOf header.fields) row record.fields =
        if isNameless header record then .error ⟨.row row, .emptyName⟩
        else .ok ((entry record).onLine row) :=
  Classical.skolem.mp (exists_entryOf header)

/-- What is decoded of a table whose rows are numbered in some way. -/
def decodeBy (row : Located → Nat) (vendor : Vendor) (header : Located)
    (records : List Located) : Except Error Decoded :=
  (entriesBy row header records).map (Decoded.ofEntries vendor)

section Cases

variable (row : Located → Nat) (vendor : Vendor)

theorem decodeBy_of_missing {column : Table.Column} {label : String}
    (h : missing? header = some (column, label)) :
    decodeBy row vendor header records = .error ⟨.row (row header), .missingColumn label⟩ := by
  rw [decodeBy, entriesBy, h]
  rfl

/-- Reading stops at the first tag without a name. -/
theorem decodeBy_of_nameless (hcolumns : missing? header = none)
    (h : (tagRecords header records).find? (isNameless header) = some record) :
    decodeBy row vendor header records = .error ⟨.row (row record), .emptyName⟩ := by
  obtain ⟨entry, hentry⟩ := exists_entries header
  have hread := mapM_eq_of_refuses (fun record => hentry record (row record))
    (tagRecords header records)
  rw [decodeBy, entriesBy, hcolumns]
  dsimp only
  rw [hread, h]
  rfl

/-- If all tags have names, they are all read, and so are their problems. -/
theorem decodeBy_of_named {entry : Located → Entry} (hcolumns : missing? header = none)
    (hentry : ∀ record row, entryOf (columnsOf header.fields) row record.fields =
      if isNameless header record then .error ⟨.row row, .emptyName⟩
      else .ok ((entry record).onLine row))
    (h : (tagRecords header records).find? (isNameless header) = none) :
    decodeBy row vendor header records = .ok
      { tags := (tagRecords header records).filterMap fun record =>
          ((entry record).read vendor).1
        issues := (tagRecords header records).flatMap fun record =>
          ((entry record).read vendor).2.map fun issue => issue.onLine (row record) } := by
  have hread := mapM_eq_of_refuses (fun record => hentry record (row record))
    (tagRecords header records)
  rw [← Decoded.ofEntries_onLine, decodeBy, entriesBy, hcolumns]
  dsimp only
  rw [hread, h]
  rfl

end Cases

/-- The records that a decoding reports with their rows. -/
inductive Reports (vendor : Vendor) (header : Located) (records : List Located) : Located → Prop
  /-- A column is missing. -/
  | column (hcolumns : missing? header ≠ none) : Reports vendor header records header
  /-- The first tag without a name. -/
  | name {record : Located} (hcolumns : missing? header = none)
      (hrecord : (tagRecords header records).find? (isNameless header) = some record) :
      Reports vendor header records record
  /-- A tag whose entry is read with a problem. -/
  | issue {record : Located} {entry : Entry} {row : Nat} (hcolumns : missing? header = none)
      (hnames : (tagRecords header records).find? (isNameless header) = none)
      (hrecord : record ∈ tagRecords header records)
      (hentry : entryOf (columnsOf header.fields) row record.fields = .ok entry)
      (hissue : (entry.read vendor).2 ≠ []) : Reports vendor header records record

/-- The record of a missing column. -/
theorem Reports.eq_header {vendor : Vendor} (h : Reports vendor header records record)
    (hcolumns : missing? header ≠ none) : record = header := by
  cases h with
  | column => rfl
  | name hnone => exact absurd hnone hcolumns
  | issue hnone => exact absurd hnone hcolumns

theorem Reports.eq_nameless {vendor : Vendor} (h : Reports vendor header records record)
    (hcolumns : missing? header = none) {nameless : Located}
    (hnames : (tagRecords header records).find? (isNameless header) = some nameless) :
    record = nameless := by
  cases h with
  | column hsome => exact absurd hcolumns hsome
  | name _ hrecord => exact Option.some.inj (hrecord.symm.trans hnames)
  | issue _ hnone => exact absurd (hnone.symm.trans hnames) (by simp)

theorem reports_iff_of_named {vendor : Vendor} {entry : Located → Entry}
    (hcolumns : missing? header = none)
    (hentry : ∀ record row, entryOf (columnsOf header.fields) row record.fields =
      if isNameless header record then .error ⟨.row row, .emptyName⟩
      else .ok ((entry record).onLine row))
    (hnames : (tagRecords header records).find? (isNameless header) = none) :
    Reports vendor header records record ↔
      record ∈ tagRecords header records ∧ ((entry record).read vendor).2 ≠ [] := by
  constructor
  · rintro (hsome | ⟨_, hsome⟩ | @⟨_, found, row, _, _, hrecord, hfound, hissue⟩)
    · exact absurd hcolumns hsome
    · exact absurd (hsome.symm.trans hnames) (by simp)
    · refine ⟨hrecord, fun hnil => hissue ?_⟩
      rw [hentry record row, if_neg (List.find?_eq_none.mp hnames record hrecord)] at hfound
      rw [← Except.ok.inj hfound, Entry.read_onLine, hnil]
      rfl
  · rintro ⟨hrecord, hissue⟩
    have hfound := hentry record 0
    rw [if_neg (List.find?_eq_none.mp hnames record hrecord)] at hfound
    refine .issue hcolumns hnames hrecord hfound fun hnil => hissue ?_
    rw [Entry.read_onLine] at hnil
    exact List.map_eq_nil_iff.mp hnil

/-- A table is refused for a missing column or a tag without a name, and for nothing else. -/
theorem exists_decodeBy_eq_error_iff (row : Located → Nat) (vendor : Vendor) :
    (∃ fault, decodeBy row vendor header records = .error fault) ↔
      missing? header ≠ none ∨
        ∃ record ∈ tagRecords header records, isNameless header record = true := by
  have hfind : (∃ record ∈ tagRecords header records, isNameless header record = true) ↔
      (tagRecords header records).find? (isNameless header) ≠ none := by
    simp [List.find?_eq_none]
  rw [hfind]
  cases hcolumns : missing? header with
  | some missing =>
      rw [decodeBy_of_missing row vendor hcolumns]
      simp
  | none =>
      cases hnames : (tagRecords header records).find? (isNameless header) with
      | some nameless =>
          rw [decodeBy_of_nameless row vendor hcolumns hnames]
          simp
      | none =>
          obtain ⟨entry, hentry⟩ := exists_entries header
          rw [decodeBy_of_named row vendor hcolumns hentry hnames]
          simp

/-- Two ways to number the rows come to the same if they agree on the records that are
reported. -/
theorem decodeBy_eq_iff (vendor : Vendor) (row other : Located → Nat) :
    decodeBy row vendor header records = decodeBy other vendor header records ↔
      ∀ record, Reports vendor header records record → row record = other record := by
  -- What is reported is the header, a record without a name, or the records with problems.
  cases hcolumns : missing? header with
  | some missing =>
      obtain ⟨column, label⟩ := missing
      have hsome : missing? header ≠ none := by simp [hcolumns]
      rw [decodeBy_of_missing row vendor hcolumns, decodeBy_of_missing other vendor hcolumns]
      constructor
      · intro h record hrecord
        rw [hrecord.eq_header hsome]
        simpa using h
      · intro h
        rw [h header (.column hsome)]
  | none =>
      cases hnames : (tagRecords header records).find? (isNameless header) with
      | some nameless =>
          rw [decodeBy_of_nameless row vendor hcolumns hnames,
            decodeBy_of_nameless other vendor hcolumns hnames]
          constructor
          · intro h record hrecord
            rw [hrecord.eq_nameless hcolumns hnames]
            simpa using h
          · intro h
            rw [h nameless (.name hcolumns hnames)]
      | none =>
          obtain ⟨entry, hentry⟩ := exists_entries header
          rw [decodeBy_of_named row vendor hcolumns hentry hnames,
            decodeBy_of_named other vendor hcolumns hentry hnames]
          simp only [reports_iff_of_named hcolumns hentry hnames, and_imp,
            ← flatMap_onLine_eq_iff]
          constructor
          · intro h
            exact congrArg Decoded.issues (Except.ok.inj h)
          · intro h
            rw [h]

end Csv

open Csv
open Table (Cell Located Stands Written)

variable {text : String} {header record : Located} {records : List Located}

theorem decode_csv (vendor : Vendor) (text : String) :
    decode vendor .csv text.toUTF8 = (Csv.entries text).map (Decoded.ofEntries vendor) := by
  rw [decode, entries, Container.text, Text.Utf8.decode_toUTF8]

theorem Csv.IsTable.decode_eq (h : IsTable text.toList header records) (vendor : Vendor) :
    decode vendor .csv text.toUTF8 = decodeBy Located.sought vendor header records := by
  rw [decode_csv, h.entries_eq, decodeBy]

/-- **A reported row is a line of the text unless line feeds are passed over in front of it.**
Every row that a decoding reports is the line on which the record is sought. -/
theorem decode_rows (h : IsTable text.toList header records) (vendor : Vendor) :
    decode vendor .csv text.toUTF8 = decodeBy Located.sought vendor header records ∧
      (decode vendor .csv text.toUTF8 = decodeBy Located.line vendor header records ↔
        ∀ record, Reports vendor header records record → '\n' ∉ record.passed) := by
  refine ⟨h.decode_eq vendor, ?_⟩
  rw [h.decode_eq vendor, decodeBy_eq_iff]
  exact forall₂_congr fun record _ => record.sought_eq_line_iff

/-- The header of a table with the ends of lines that some systems write. -/
def crlfHeader : Located :=
  ⟨[], [], [.bare "name".toList, .bare "type".toList]⟩

/-- A tag of a type that Beckhoff has. -/
def knownRow : Located :=
  ⟨"name,type\r".toList, ['\n'], [.bare "Good".toList, .bare "BOOL".toList]⟩

/-- A tag of a type that Beckhoff does not have. -/
def unknownRow : Located :=
  ⟨"name,type\r\nGood,BOOL\r".toList, ['\n'], [.bare "Odd".toList, .bare "LREAL".toList]⟩

def crlfText : String :=
  "name,type\r\nGood,BOOL\r\nOdd,LREAL\r\n"

theorem header?_crlfText :
    Table.header? (Markup.withoutMarks crlfText.toList) = some (1, crlfText.toList) := by
  have hline : Table.IsLine "name,type\r".toList := by decide
  have hread := Table.headerFrom_step hline 1 "Good,BOOL\r\nOdd,LREAL\r\n".toList
  rw [if_neg (by decide +kernel)] at hread
  exact hread

theorem isTable_crlfText : IsTable crlfText.toList crlfHeader [knownRow, unknownRow] := by
  have hdelimiter : Table.delimiterOf (Table.cutLine crlfText.toList).1 = ',' := by decide +kernel
  have hends : ∀ c ∈ ['\n'], Table.isLineEnd c = true := by simp [Table.isLineEnd]
  have hheader : Written ',' "\r\nGood,BOOL\r\nOdd,LREAL\r\n".toList crlfHeader.cells
      "name,type".toList :=
    .more (by decide) (.last (by decide) (by decide))
  have hknown : Written ',' "\r\nOdd,LREAL\r\n".toList knownRow.cells "Good,BOOL".toList :=
    .more (by decide) (.last (by decide) (by decide))
  have hunknown : Written ',' "\r\n".toList unknownRow.cells "Odd,LREAL".toList :=
    .more (by decide) (.last (by decide) (by decide))
  have hstands : Stands ',' [] crlfText.toList [crlfHeader, knownRow, unknownRow] :=
    .more (List.forall_mem_nil _) (by decide) hheader
      (.more hends (by decide) hknown (.more hends (by decide) hunknown (.none hends)))
  exact .intro header?_crlfText rfl (hdelimiter ▸ hstands)

theorem decode_rows_crlf :
    IsTable crlfText.toList crlfHeader [knownRow, unknownRow] ∧
      decode .beckhoff .csv crlfText.toUTF8 =
          decodeBy Located.sought .beckhoff crlfHeader [knownRow, unknownRow] ∧
        (decode .beckhoff .csv crlfText.toUTF8 =
            decodeBy Located.line .beckhoff crlfHeader [knownRow, unknownRow] ↔
          ∀ record, Reports .beckhoff crlfHeader [knownRow, unknownRow] record →
            '\n' ∉ record.passed) :=
  ⟨isTable_crlfText, decode_rows isTable_crlfText .beckhoff⟩

/-- The line feed behind a carriage return is not counted: the tag on the third line is reported
on the second. -/
theorem issues_crlfText :
    IsTable crlfText.toList crlfHeader [knownRow, unknownRow] ∧ unknownRow.line = 3 ∧
      (decode .beckhoff .csv crlfText.toUTF8).map Decoded.issues = .ok
        [{ severity := .error, code := .untranslatableType, line := some 2, tag := some "Odd",
           message := "beckhoff has no data type 'LREAL'" }] ∧
      decode .beckhoff .csv crlfText.toUTF8 ≠
        decodeBy Located.line .beckhoff crlfHeader [knownRow, unknownRow] := by
  have hissues : (decode .beckhoff .csv crlfText.toUTF8).map Decoded.issues = .ok
      [{ severity := .error, code := .untranslatableType, line := some 2, tag := some "Odd",
         message := "beckhoff has no data type 'LREAL'" }] := by
    rw [isTable_crlfText.decode_eq]
    decide +kernel
  refine ⟨isTable_crlfText, by decide, hissues, fun heq => ?_⟩
  rw [heq] at hissues
  exact absurd hissues (by decide +kernel)

/-- **A quote that is never closed is not reported.**  What stands behind it is the last field
of the last record, and whether the table is refused depends on its columns and names only. -/
theorem decode_unclosed {inner : List Char} (h : IsTable text.toList header records)
    (hrecord : record ∈ records) (hcell : .unclosed inner ∈ record.cells) (vendor : Vendor) :
    (∃ front, text.toList = front ++ '"' :: Table.doubleQuotes inner) ∧
      records.getLast? = some record ∧
      record.fields.getLast? = some (String.ofList (Text.trim inner)) ∧
      ((∃ fault, decode vendor .csv text.toUTF8 = .error fault) ↔
        missing? header ≠ none ∨
          ∃ nameless ∈ tagRecords header records, isNameless header nameless = true) := by
  rw [h.decode_eq vendor]
  have hmem : record ∈ header :: records := List.mem_cons_of_mem _ hrecord
  obtain ⟨_, raw, rest, hsplit, -, hwritten⟩ := h.exists_of_mem hmem
  obtain ⟨rfl, hlast, before, rfl⟩ := hwritten.of_unclosed hcell
  refine ⟨⟨record.front ++ record.passed ++ before, ?_⟩, ?_, ?_,
    exists_decodeBy_eq_error_iff _ vendor⟩
  · rw [hsplit]
    simp
  · obtain ⟨-, -, stands⟩ := h
    have hend := stands.getLast?_of_unclosed hmem hcell
    rwa [List.getLast?_cons_of_ne_nil (List.ne_nil_of_mem hrecord)] at hend
  · rw [Located.fields, List.getLast?_map, hlast]
    rfl

/-- The header of a table with a comment for each tag. -/
def commentHeader : Located :=
  ⟨[], [], [.bare "Name".toList, .bare "Type".toList, .bare "Comment".toList]⟩

/-- A tag whose comment begins with a quote that is not closed. -/
def openRow : Located :=
  ⟨"Name,Type,Comment\n".toList, [],
    [.bare "Pump".toList, .bare "Bool".toList, .unclosed "main\nValve,Bool,\n".toList]⟩

def openText : String :=
  "Name,Type,Comment\nPump,Bool,\"main\nValve,Bool,\n"

theorem isTable_openText : IsTable openText.toList commentHeader [openRow] := by
  have hline : Table.IsLine "Name,Type,Comment".toList := by decide
  have hfound := Table.headerFrom_step hline 1 "Pump,Bool,\"main\nValve,Bool,\n".toList
  rw [if_neg (by decide +kernel)] at hfound
  have hdelimiter : Table.delimiterOf (Table.cutLine openText.toList).1 = ',' := by decide +kernel
  have hheader : Written ',' "\nPump,Bool,\"main\nValve,Bool,\n".toList commentHeader.cells
      "Name,Type,Comment".toList :=
    .more (by decide) (.more (by decide) (.last (by decide) (by decide)))
  have hopen : Written ',' [] openRow.cells "Pump,Bool,\"main\nValve,Bool,\n".toList :=
    .more (by decide) (.more (by decide) (.last (by decide) (by decide)))
  have hstands : Stands ',' [] openText.toList [commentHeader, openRow] :=
    .more (List.forall_mem_nil _) (by decide) hheader
      (.last (List.forall_mem_nil _) (by decide) hopen)
  exact .intro hfound rfl (hdelimiter ▸ hstands)

theorem unclosed_mem_openRow : .unclosed "main\nValve,Bool,\n".toList ∈ openRow.cells :=
  .tail _ (.tail _ (.head _))

theorem decode_unclosed_openText :
    (IsTable openText.toList commentHeader [openRow] ∧
      .unclosed "main\nValve,Bool,\n".toList ∈ openRow.cells) ∧
      (∃ front, openText.toList =
        front ++ '"' :: Table.doubleQuotes "main\nValve,Bool,\n".toList) ∧
      [openRow].getLast? = some openRow ∧
      openRow.fields.getLast? =
        some (String.ofList (Text.trim "main\nValve,Bool,\n".toList)) ∧
      ((∃ fault, decode .siemens .csv openText.toUTF8 = .error fault) ↔
        missing? commentHeader ≠ none ∨
          ∃ nameless ∈ tagRecords commentHeader [openRow],
            isNameless commentHeader nameless = true) :=
  ⟨⟨isTable_openText, unclosed_mem_openRow⟩,
    decode_unclosed isTable_openText (.head _) unclosed_mem_openRow .siemens⟩

/-- A row that is lost in the comment of the one before it, without a word. -/
theorem decode_openText :
    IsTable openText.toList commentHeader [openRow] ∧
      .unclosed "main\nValve,Bool,\n".toList ∈ openRow.cells ∧
      (decode .siemens .csv openText.toUTF8).map Decoded.tags = .ok
        [{ name := "Pump", dataType := .bool, scope := .local, category := .memory,
           description := "main\nValve,Bool,", vendor := .siemens }] ∧
      (decode .siemens .csv openText.toUTF8).map Decoded.issues = .ok [] := by
  refine ⟨isTable_openText, unclosed_mem_openRow, ?_, ?_⟩
  · rw [isTable_openText.decode_eq]
    decide +kernel
  · rw [isTable_openText.decode_eq]
    decide +kernel

end Container

end PlcTags
