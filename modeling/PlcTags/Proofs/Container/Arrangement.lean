import Mathlib.Data.List.Forall2
import Mathlib.Data.List.Pairwise
import PlcTags.Proofs.Container.Rows
import PlcTags.Proofs.Tag.Name

/-!
# Columns in any order

A sheet is a list of columns, each with a header and a cell for each row.  Written with any
delimiter and its columns in any order, it is decoded to the same (`decode_arrangement`).

The proof goes along the header line.  It is not taken for a line in front of the header,
because the header of the names has a letter that no number has (`Sheet.IsPlain.exists_stray`);
only a column whose header is a remark may spoil that, if it comes first
(`decode_remarks_first`).  The delimiter is the only one on the line, and the columns are
recognised by their letters and digits, so that neither marks nor blanks around a header count.
What follows is read by columns and not by their places: each is found wherever it stands
(`Sheet.IsPlain.find?_eq`), and the rows stand on the same lines (`Sheet.alike_readBack`).
-/

namespace PlcTags.Container

open Table (Column columnsOf cell? readBack)

/-! ## Records that say the same -/

namespace Csv

/-- Two records under two headers say the same. -/
structure Alike (columns others : List (Option Column)) (record twin : Table.Record) : Prop where
  line_eq : record.line = twin.line
  blank_eq : record.fields.all String.isEmpty = twin.fields.all String.isEmpty
  cell_eq : ∀ column, cell? columns record.fields column = cell? others twin.fields column

variable {columns others : List (Option Column)}

theorem Alike.isTagRecord_eq {record twin : Table.Record} (h : Alike columns others record twin) :
    isTagRecord columns record.fields = isTagRecord others twin.fields := by
  rw [isTagRecord, isTagRecord, h.blank_eq, h.cell_eq]

theorem Alike.entryOf_eq {record twin : Table.Record} (h : Alike columns others record twin)
    (row : Nat) : entryOf columns row record.fields = entryOf others row twin.fields := by
  unfold entryOf
  simp only [h.cell_eq]

/-- Tables whose records say the same have the same entries. -/
theorem entriesOf_eq_of_alike {records twins : List Table.Record}
    (h : List.Forall₂ (Alike columns others) records twins) (headerLine : Nat) :
    entriesOf columns headerLine records = entriesOf others headerLine twins := by
  induction h with
  | nil => rfl
  | @cons record twin records twins hrecord _ ih =>
      rw [entriesOf, entriesOf] at ih ⊢
      simp only [List.filter_cons, hrecord.isTagRecord_eq]
      split
      · rw [List.mapM_cons, List.mapM_cons, ih, hrecord.line_eq, hrecord.entryOf_eq]
      · exact ih

theorem requiredColumns_of_forall
    (h : ∀ kind ∈ requiredColumns.map Prod.fst, some kind ∈ columns) :
    (requiredColumns.find? fun required => !columns.contains (some required.1)) = none := by
  refine List.find?_eq_none.mpr fun required hrequired hmissing => ?_
  have hmem := h required.1 (List.mem_map_of_mem hrequired)
  simp [hmem] at hmissing

end Csv

/-! ## Sheets -/

/-- A column of a sheet: its header, and a cell for each row. -/
structure SheetColumn (rows : Nat) where
  header : List Char
  cell : Fin rows → List Char

/-- A sheet, its columns in some order. -/
abbrev Sheet (rows : Nat) :=
  List (SheetColumn rows)

namespace Sheet

variable {rows : Nat}

def headers (sheet : Sheet rows) : List (List Char) :=
  sheet.map SheetColumn.header

def row (sheet : Sheet rows) (index : Fin rows) : List (List Char) :=
  sheet.map fun column => column.cell index

/-- The records behind the header. -/
def body (sheet : Sheet rows) : List (List (List Char)) :=
  (List.finRange rows).map sheet.row

/-- The headers on their line. -/
def headerLine (delimiter : Char) (sheet : Sheet rows) : List Char :=
  [delimiter].intercalate sheet.headers

/-- The sheet as a text. -/
def write (delimiter : Char) (sheet : Sheet rows) : String :=
  String.ofList (Table.writeRecords delimiter (sheet.headers :: sheet.body))

/-- The headers as they are compared. -/
def keys (sheet : Sheet rows) : List String :=
  sheet.map fun column => Table.headerKey (String.ofList column.header)

/-- The meaning of a column. -/
def kind? (sheet : Sheet rows) (column : SheetColumn rows) : Option Column :=
  Table.columnOf? (sheet.keys.contains "type" && sheet.keys.contains "datatype")
    (Table.headerKey (String.ofList column.header))

/-- Two columns do not mean the same. -/
def Differ (sheet : Sheet rows) (column other : SheetColumn rows) : Prop :=
  ∀ kind, sheet.kind? column = some kind → sheet.kind? other ≠ some kind

instance (sheet : Sheet rows) : Std.Symm sheet.Differ where
  symm _ _ h kind hother hcolumn := h kind hcolumn hother

/-- A header that may stand in a table as it is. -/
def IsPlainHeader (header : List Char) : Prop :=
  ∀ c ∈ header, c ∉ Table.delimiters ∧ c ≠ '"' ∧ Table.isLineEnd c = false

instance (header : List Char) : Decidable (IsPlainHeader header) :=
  decidable_of_iff
    ((header.all fun c => !Table.delimiters.contains c && c != '"' && !Table.isLineEnd c) = true)
    (by simp [IsPlainHeader, and_assoc])

theorem differ_iff {sheet : Sheet rows} {column other : SheetColumn rows} :
    sheet.Differ column other ↔
      sheet.kind? column = none ∨ sheet.kind? column ≠ sheet.kind? other := by
  unfold Differ
  cases sheet.kind? column with
  | none => simp
  | some kind => simp [eq_comm]

instance (sheet : Sheet rows) : DecidableRel sheet.Differ := fun _ _ =>
  decidable_of_iff _ differ_iff.symm

/-- A sheet with plain headers that names each of its meanings once, and that has the columns
that every table must have. -/
structure IsPlain (sheet : Sheet rows) : Prop where
  plain : ∀ column ∈ sheet, IsPlainHeader column.header
  distinct : sheet.Pairwise sheet.Differ
  required : ∀ kind ∈ Csv.requiredColumns.map Prod.fst,
    ∃ column ∈ sheet, sheet.kind? column = some kind

instance (sheet : Sheet rows) : Decidable sheet.IsPlain :=
  decidable_of_iff
    ((∀ column ∈ sheet, IsPlainHeader column.header) ∧ sheet.Pairwise sheet.Differ ∧
      ∀ kind ∈ Csv.requiredColumns.map Prod.fst,
        ∃ column ∈ sheet, sheet.kind? column = some kind)
    ⟨fun h => ⟨h.1, h.2.1, h.2.2⟩, fun h => ⟨h.plain, h.distinct, h.required⟩⟩

/-- The header line begins with the word that makes it a remark, behind marks and blanks. -/
def BeginsWithRemark (delimiter : Char) (sheet : Sheet rows) : Prop :=
  Table.isRemark
    (Text.trim (Markup.withoutMarks (sheet.headerLine delimiter))) = true

instance (delimiter : Char) (sheet : Sheet rows) : Decidable (sheet.BeginsWithRemark delimiter) :=
  inferInstanceAs (Decidable (_ = true))

/-! ## Another order -/

variable {sheet other : Sheet rows}

theorem kind?_eq_of_perm (h : sheet.Perm other) : sheet.kind? = other.kind? := by
  have hkeys : sheet.keys.Perm other.keys := h.map _
  funext column
  rw [kind?, kind?, hkeys.contains_eq, hkeys.contains_eq]

theorem IsPlain.eq_of_kind? (h : sheet.IsPlain) {column twin : SheetColumn rows} {kind : Column}
    (hcolumn : column ∈ sheet) (htwin : twin ∈ sheet) (hkind : sheet.kind? column = some kind)
    (hsame : sheet.kind? twin = some kind) : column = twin := by
  classical
  exact Decidable.byContradiction fun hne =>
    h.distinct.forall hcolumn htwin hne kind hkind hsame

/-- In whatever order the columns are searched, the one of a kind is found. -/
theorem IsPlain.find?_eq (h : sheet.IsPlain) (hperm : sheet.Perm other) (kind : Column) :
    (sheet.find? fun column => sheet.kind? column == some kind) =
      other.find? fun column => other.kind? column == some kind := by
  rw [← kind?_eq_of_perm hperm]
  cases hfind : sheet.find? fun column => sheet.kind? column == some kind with
  | none =>
      rw [eq_comm, List.find?_eq_none]
      exact fun column hcolumn => List.find?_eq_none.mp hfind column (hperm.mem_iff.mpr hcolumn)
  | some column =>
      have hmem := List.mem_of_find?_eq_some hfind
      have hkind : sheet.kind? column = some kind := by simpa using List.find?_some hfind
      cases hother : other.find? fun column => sheet.kind? column == some kind with
      | none =>
          have hnone := List.find?_eq_none.mp hother column (hperm.mem_iff.mp hmem)
          exact absurd hkind (by simpa using hnone)
      | some twin =>
          have htwin := hperm.mem_iff.mpr (List.mem_of_find?_eq_some hother)
          have hsame : sheet.kind? twin = some kind := by simpa using List.find?_some hother
          rw [h.eq_of_kind? hmem htwin hkind hsame]

theorem alike_row (h : sheet.IsPlain) (hperm : sheet.Perm other) (line : Nat) (index : Fin rows) :
    Csv.Alike (sheet.map sheet.kind?) (other.map other.kind?)
      ⟨line, (sheet.row index).map Table.readField⟩
      ⟨line, (other.row index).map Table.readField⟩ where
  line_eq := rfl
  blank_eq := ((hperm.map _).map _).all_eq
  cell_eq kind := by
    rw [row, row, List.map_map, List.map_map, Table.cell?_map_map, Table.cell?_map_map,
      h.find?_eq hperm]

/-- The rows of both orders are alike, and on the same lines. -/
theorem alike_readBack (h : sheet.IsPlain) (hperm : sheet.Perm other) (lineFeeds : Nat)
    (indices : List (Fin rows)) :
    List.Forall₂ (Csv.Alike (sheet.map sheet.kind?) (other.map other.kind?))
      (readBack lineFeeds (indices.map sheet.row)) (readBack lineFeeds (indices.map other.row)) := by
  induction indices generalizing lineFeeds with
  | nil => exact .nil
  | cons index indices ih =>
      have hfeeds : (sheet.row index).flatten.count '\n' = (other.row index).flatten.count '\n' :=
        (hperm.map _).flatten.count_eq '\n'
      rw [List.map_cons, List.map_cons, readBack, readBack, ← hfeeds]
      exact .cons (alike_row h hperm _ index) (ih _)

/-- Another order of the columns is as plain. -/
theorem IsPlain.of_perm (h : sheet.IsPlain) (hperm : sheet.Perm other) : other.IsPlain where
  plain column hcolumn := h.plain column (hperm.mem_iff.mpr hcolumn)
  distinct := by
    have hdiffer : other.Differ = sheet.Differ := by
      funext column twin
      rw [Differ, Differ, kind?_eq_of_perm hperm]
    rw [hdiffer]
    exact (hperm.pairwise_iff fun hcolumns => Std.Symm.symm _ _ hcolumns).mp h.distinct
  required kind hkind := by
    obtain ⟨column, hcolumn, hsame⟩ := h.required kind hkind
    exact ⟨column, hperm.mem_iff.mp hcolumn, kind?_eq_of_perm hperm ▸ hsame⟩

/-! ## The header line -/

/-- Letters that no number has, and that every header of the names has one of. -/
def strayLetters : List Char :=
  ['g', 'm', 's', 'v']

theorem toLower_of_toNat_lt {c : Char} (h : c.toNat < 65) : c.toLower = c := by
  unfold Char.toLower
  rw [dif_neg]
  rintro ⟨hlow, -⟩
  have hlow := UInt32.le_iff_toNat_le.mp hlow
  exact absurd (Nat.lt_of_le_of_lt hlow h) (by decide)

theorem isNumberChar_eq_false {c : Char} (h : c.toLower ∈ strayLetters) :
    Table.isNumberChar c = false := by
  have hletter : Table.numberLetters.contains c.toLower = false ∧ ¬ c.toLower.toNat < 65 := by
    simp only [strayLetters, List.mem_cons, List.not_mem_nil, or_false] at h
    rcases h with h | h | h | h <;> rw [h] <;> decide
  -- Digits, signs and the point come before all letters, and have no lower case.
  have hhigh : ¬ c.toNat < 65 := fun hlow => hletter.2 ((toLower_of_toNat_lt hlow).symm ▸ hlow)
  have hdigit : c.isDigit = false := by
    refine Bool.eq_false_iff.mpr fun hdigit => hhigh ?_
    have := (Address.toNat_of_isDigit hdigit).2
    omega
  have hsign : Table.isSign c = false := by
    refine Bool.eq_false_iff.mpr fun hsign => hhigh ?_
    rcases Bool.or_eq_true_iff.mp hsign with hplus | hminus
    · rw [beq_iff_eq.mp hplus]
      decide
    · rw [beq_iff_eq.mp hminus]
      decide
  have hpoint : (c == '.') = false := by
    refine Bool.eq_false_iff.mpr fun hpoint => hhigh ?_
    rw [beq_iff_eq.mp hpoint]
    decide
  rw [Table.isNumberChar, hdigit, hsign, hpoint, hletter.1]
  rfl

/-- A header of the names has a letter that no number has. -/
theorem exists_stray_of_name {tellsKind : Bool} {key : String}
    (h : Table.columnOf? tellsKind key = some .name) :
    (key.toList.any fun c => strayLetters.contains c) = true := by
  unfold Table.columnOf? at h
  split at h
  all_goals first
    | decide
    | (split at h <;> cases h)
    | cases h

/-- The header line has a letter that no number has. -/
theorem IsPlain.exists_stray (h : sheet.IsPlain) :
    ∃ column ∈ sheet, ∃ c ∈ column.header, c.isAlphanum = true ∧ c.toLower ∈ strayLetters := by
  obtain ⟨column, hcolumn, hkind⟩ := h.required .name (by decide)
  obtain ⟨d, hd, hstray⟩ := List.any_eq_true.mp (exists_stray_of_name hkind)
  rw [Table.headerKey, String.toList_ofList, String.toList_ofList] at hd
  obtain ⟨c, hc, rfl⟩ := List.mem_map.mp hd
  obtain ⟨hmem, halphanum⟩ := List.mem_filter.mp hc
  exact ⟨column, hcolumn, c, hmem, halphanum, List.contains_iff_mem.mp hstray⟩

/-- A sheet has at least two columns. -/
theorem IsPlain.exists_pair (h : sheet.IsPlain) :
    ∃ first second others, sheet = first :: second :: others := by
  obtain ⟨name, hname, hnameKind⟩ := h.required .name (by decide)
  obtain ⟨type, htype, htypeKind⟩ := h.required .dataType (by decide)
  have hne : name ≠ type := by
    rintro rfl
    exact absurd (hnameKind.symm.trans htypeKind) (by decide)
  clear hnameKind htypeKind h
  cases sheet with
  | nil => cases hname
  | cons first others =>
      cases others with
      | nil =>
          exact absurd ((List.mem_singleton.mp hname).trans (List.mem_singleton.mp htype).symm) hne
      | cons second others => exact ⟨first, second, others, rfl⟩

theorem headerLine_cons (delimiter : Char) (first second : SheetColumn rows)
    (others : Sheet rows) :
    headerLine delimiter (first :: second :: others) =
      first.header ++ delimiter :: headerLine delimiter (second :: others) := by
  simp [headerLine, headers, List.intercalate]

theorem mem_headerLine {delimiter : Char} {column : SheetColumn rows} {c : Char}
    (hcolumn : column ∈ sheet) (hc : c ∈ column.header) : c ∈ sheet.headerLine delimiter := by
  induction sheet with
  | nil => cases hcolumn
  | cons first others ih =>
      cases others with
      | nil =>
          obtain rfl := List.mem_singleton.mp hcolumn
          simpa [headerLine, headers, List.intercalate] using hc
      | cons second others =>
          rw [headerLine_cons]
          rcases List.mem_cons.mp hcolumn with rfl | hothers
          · exact List.mem_append_left _ hc
          · exact List.mem_append_right _ (List.mem_cons_of_mem _ (ih hothers))

theorem mem_of_mem_headerLine {delimiter c : Char} (h : c ∈ sheet.headerLine delimiter) :
    c = delimiter ∨ ∃ column ∈ sheet, c ∈ column.header := by
  induction sheet with
  | nil => cases h
  | cons first others ih =>
      have hmore : (c = delimiter ∨ ∃ column ∈ others, c ∈ column.header) →
          c = delimiter ∨ ∃ column ∈ first :: others, c ∈ column.header := by
        rintro (hdelimiter | ⟨column, hcolumn, hc⟩)
        · exact .inl hdelimiter
        · exact .inr ⟨column, List.mem_cons_of_mem _ hcolumn, hc⟩
      cases others with
      | nil =>
          have hfirst : c ∈ first.header := by
            simpa [headerLine, headers, List.intercalate] using h
          exact .inr ⟨first, List.mem_cons_self, hfirst⟩
      | cons second others =>
          rw [headerLine_cons] at h
          rcases List.mem_append.mp h with hfirst | hrest
          · exact .inr ⟨first, List.mem_cons_self, hfirst⟩
          · exact hmore ((List.mem_cons.mp hrest).elim .inl ih)

/-! ## Marks -/

theorem toNat_of_isAlphanum {c : Char} (h : c.isAlphanum = true) : c.toNat < 123 :=
  (Vendor.toNat_of_isAlphanum (by rw [h, Bool.true_or])).2

theorem withoutMarks_append (front : List Char) {c : Char} (hc : c.toNat ≠ 0xFEFF)
    (rest : List Char) :
    Markup.withoutMarks (front ++ c :: rest) = Markup.withoutMarks front ++ c :: rest := by
  induction front with
  | nil => simp [Markup.withoutMarks, hc]
  | cons d front ih =>
      rw [Markup.withoutMarks, Markup.withoutMarks] at ih ⊢
      rw [List.cons_append, List.dropWhile_cons, List.dropWhile_cons]
      split
      · exact ih
      · rfl

theorem toNat_of_withoutMarks {text rest : List Char} {c : Char}
    (h : Markup.withoutMarks text = c :: rest) : c.toNat ≠ 0xFEFF := by
  induction text with
  | nil => cases h
  | cons d text ih =>
      rw [Markup.withoutMarks, List.dropWhile_cons] at h
      split at h
      · exact ih h
      · rename_i hmark
        rw [← (List.cons.inj h).1]
        simpa using hmark

/-- The sheet without the marks in front of it: they stand in front of the first header. -/
def unmarked (sheet : Sheet rows) : Sheet rows :=
  match sheet with
  | [] => []
  | first :: others => { first with header := Markup.withoutMarks first.header } :: others

theorem toNat_delimiter {delimiter : Char} (h : delimiter ∈ Table.delimiters) :
    delimiter.toNat ≠ 0xFEFF := by
  simp only [Table.delimiters, List.mem_cons, List.not_mem_nil, or_false] at h
  rcases h with rfl | rfl | rfl <;> decide

theorem IsPlain.withoutMarks_headerLine (h : sheet.IsPlain) {delimiter : Char}
    (hdelimiter : delimiter ∈ Table.delimiters) :
    Markup.withoutMarks (sheet.headerLine delimiter) = sheet.unmarked.headerLine delimiter := by
  obtain ⟨first, second, others, rfl⟩ := h.exists_pair
  rw [headerLine_cons, withoutMarks_append _ (toNat_delimiter hdelimiter)]
  exact (headerLine_cons delimiter { first with header := Markup.withoutMarks first.header } second
    others).symm

theorem forall_mem_unmarked {motive : List Char → Prop}
    (hmark : ∀ header, motive header → motive (Markup.withoutMarks header))
    (h : ∀ column ∈ sheet, motive column.header) :
    ∀ column ∈ sheet.unmarked, motive column.header := by
  cases sheet with
  | nil => exact h
  | cons first others =>
      obtain ⟨hfirst, hothers⟩ := List.forall_mem_cons.mp h
      exact List.forall_mem_cons.mpr ⟨hmark _ hfirst, hothers⟩

theorem IsPlain.plain_unmarked (h : sheet.IsPlain) :
    ∀ column ∈ sheet.unmarked, IsPlainHeader column.header := by
  refine forall_mem_unmarked (fun header hheader c hc => ?_) h.plain
  exact hheader c ((List.dropWhile_sublist _).mem hc)

/-- Plain headers are written as they are. -/
theorem writeRecords_headers {delimiter : Char} (hdelimiter : delimiter ∈ Table.delimiters)
    {first second : SheetColumn rows} {others : Sheet rows}
    (hplain : ∀ column ∈ first :: second :: others, IsPlainHeader column.header)
    (body : List (List (List Char))) :
    Table.writeRecords delimiter (headers (first :: second :: others) :: body) =
      headerLine delimiter (first :: second :: others) ++
        '\n' :: Table.writeRecords delimiter body := by
  have hfields : (headers (first :: second :: others)).map (Table.writeField delimiter) =
      headers (first :: second :: others) := by
    rw [headers, List.map_map]
    refine List.map_congr_left fun column hcolumn => ?_
    refine if_neg fun hneeds => ?_
    obtain ⟨c, hc, hmeans⟩ := List.any_eq_true.mp hneeds
    obtain ⟨hother, hquote, hend⟩ := hplain column hcolumn c hc
    have hne : c ≠ delimiter := fun heq => hother (heq ▸ hdelimiter)
    simp [hne, hquote, hend] at hmeans
  have hmany : headers (first :: second :: others) ≠ [[]] := by
    simp [headers]
  have hwrite : Table.writeRecord delimiter (headers (first :: second :: others)) =
      headerLine delimiter (first :: second :: others) ++ ['\n'] := by
    rw [Table.writeRecord, hfields, headerLine]
    exact hmany
  rw [Table.writeRecords, List.flatMap_cons, hwrite, List.append_assoc]
  rfl

/-! ## Reading a sheet -/

section Reading

variable {delimiter : Char}

theorem IsPlain.write_eq (h : sheet.IsPlain) (hdelimiter : delimiter ∈ Table.delimiters) :
    (write delimiter sheet).toList =
      sheet.headerLine delimiter ++ '\n' :: Table.writeRecords delimiter sheet.body := by
  obtain ⟨first, second, others, rfl⟩ := h.exists_pair
  rw [write, String.toList_ofList, writeRecords_headers hdelimiter h.plain]

theorem IsPlain.withoutMarks_write (h : sheet.IsPlain)
    (hdelimiter : delimiter ∈ Table.delimiters) :
    Markup.withoutMarks (write delimiter sheet).toList =
      sheet.unmarked.headerLine delimiter ++ '\n' :: Table.writeRecords delimiter sheet.body := by
  rw [h.write_eq hdelimiter, withoutMarks_append _ (by decide),
    h.withoutMarks_headerLine hdelimiter]

/-- Without its marks, the header line is still that of a plain sheet. -/
theorem IsPlain.of_mem_headerLine (h : sheet.IsPlain) {c : Char}
    (hc : c ∈ sheet.unmarked.headerLine delimiter) :
    c = delimiter ∨ c ∉ Table.delimiters ∧ c ≠ '"' ∧ Table.isLineEnd c = false := by
  rcases mem_of_mem_headerLine hc with hdelimiter | ⟨column, hcolumn, hmem⟩
  · exact .inl hdelimiter
  · exact .inr (h.plain_unmarked column hcolumn c hmem)

theorem IsPlain.exists_stray_headerLine (h : sheet.IsPlain)
    (hdelimiter : delimiter ∈ Table.delimiters) :
    ∃ c ∈ sheet.unmarked.headerLine delimiter,
      c.isAlphanum = true ∧ c.toLower ∈ strayLetters := by
  obtain ⟨column, hcolumn, c, hc, halphanum, hstray⟩ := h.exists_stray
  refine ⟨c, ?_, halphanum, hstray⟩
  rw [← h.withoutMarks_headerLine hdelimiter]
  refine Text.mem_dropWhile_of_neg (mem_headerLine hcolumn hc) ?_
  have hlow := toNat_of_isAlphanum halphanum
  rw [beq_eq_false_iff_ne]
  omega

/-- The header line is not taken for a line in front of the header unless it is a remark. -/
theorem IsPlain.isPreamble_headerLine (h : sheet.IsPlain)
    (hdelimiter : delimiter ∈ Table.delimiters) (hremark : ¬ sheet.BeginsWithRemark delimiter) :
    Table.isPreamble (sheet.unmarked.headerLine delimiter) = false := by
  obtain ⟨c, hc, halphanum, hstray⟩ := h.exists_stray_headerLine hdelimiter
  have hblank : Text.isBlank c = false :=
    Vendor.isBlank_of_isAlphanum (by rw [halphanum, Bool.true_or])
  have hmem : c ∈ Text.trim (sheet.unmarked.headerLine delimiter) :=
    Text.mem_trim_of_not_blank hc hblank
  have hempty : (Text.trim (sheet.unmarked.headerLine delimiter)).isEmpty = false :=
    List.isEmpty_eq_false_iff.mpr (List.ne_nil_of_mem hmem)
  have hquote : c ≠ '"' := by
    rintro rfl
    exact absurd halphanum (by decide)
  have hversion := Table.isVersion_eq_false hmem (isNumberChar_eq_false hstray) hquote
  rw [BeginsWithRemark, h.withoutMarks_headerLine hdelimiter, Bool.not_eq_true] at hremark
  rw [Table.isPreamble, hempty, hremark, hversion]
  rfl

theorem IsPlain.isLine_headerLine (h : sheet.IsPlain)
    (hdelimiter : delimiter ∈ Table.delimiters) :
    Table.IsLine (sheet.unmarked.headerLine delimiter) := by
  obtain ⟨c, hc, -⟩ := h.exists_stray_headerLine hdelimiter
  refine ⟨List.ne_nil_of_mem hc, fun hfeed => ?_⟩
  rcases h.of_mem_headerLine hfeed with rfl | ⟨-, -, hend⟩
  · exact absurd hdelimiter (by decide)
  · exact absurd hend (by decide)

theorem IsPlain.delimiterOf_headerLine (h : sheet.IsPlain)
    (hdelimiter : delimiter ∈ Table.delimiters) :
    Table.delimiterOf (sheet.unmarked.headerLine delimiter) = delimiter := by
  refine Table.delimiterOf_eq ?_ ?_ hdelimiter fun other hother hmem => ?_
  · obtain ⟨first, second, others, rfl⟩ := h.exists_pair
    rw [← h.withoutMarks_headerLine hdelimiter, headerLine_cons,
      withoutMarks_append _ (toNat_delimiter hdelimiter)]
    exact List.mem_append_right _ List.mem_cons_self
  · intro hquote
    rcases h.of_mem_headerLine hquote with rfl | ⟨-, hne, -⟩
    · exact absurd hdelimiter (by decide)
    · exact hne rfl
  · exact (h.of_mem_headerLine hmem).resolve_right fun hplain => hplain.1 hother

/-- A sheet is found from its header on, on the first line. -/
theorem IsPlain.header?_write (h : sheet.IsPlain) (hdelimiter : delimiter ∈ Table.delimiters)
    (hremark : ¬ sheet.BeginsWithRemark delimiter) :
    Table.header? (Markup.withoutMarks (write delimiter sheet).toList) =
      some (1, sheet.unmarked.headerLine delimiter ++
        '\n' :: Table.writeRecords delimiter sheet.body) := by
  rw [h.withoutMarks_write hdelimiter, Table.header?,
    Table.headerFrom_step (h.isLine_headerLine hdelimiter),
    h.isPreamble_headerLine hdelimiter hremark, if_neg Bool.false_ne_true]

theorem IsPlain.unmarked_write (h : sheet.IsPlain) (hdelimiter : delimiter ∈ Table.delimiters) :
    Table.writeRecords delimiter (sheet.unmarked.headers :: sheet.body) =
      sheet.unmarked.headerLine delimiter ++
        '\n' :: Table.writeRecords delimiter sheet.body := by
  obtain ⟨first, second, others, rfl⟩ := h.exists_pair
  exact writeRecords_headers hdelimiter h.plain_unmarked _

/-- The header line is no longer marked, and so it is not read without its first character. -/
theorem IsPlain.withoutMark_headerLine (h : sheet.IsPlain)
    (hdelimiter : delimiter ∈ Table.delimiters) (rest : List Char) :
    Csv.withoutMark (sheet.unmarked.headerLine delimiter ++ rest) =
      sheet.unmarked.headerLine delimiter ++ rest := by
  obtain ⟨c, hc, -⟩ := h.exists_stray_headerLine hdelimiter
  rw [← h.withoutMarks_headerLine hdelimiter] at hc ⊢
  cases hline : Markup.withoutMarks (sheet.headerLine delimiter) with
  | nil =>
      rw [hline] at hc
      cases hc
  | cons d line => exact if_neg (toNat_of_withoutMarks hline)

/-- The records of a sheet are read back. -/
theorem IsPlain.records_write (h : sheet.IsPlain) (hdelimiter : delimiter ∈ Table.delimiters) :
    Table.records delimiter (Csv.withoutMark (sheet.unmarked.headerLine delimiter ++
        '\n' :: Table.writeRecords delimiter sheet.body)) =
      ⟨1, sheet.unmarked.headers.map Table.readField⟩ :: readBack 1 sheet.body := by
  have hne : ∀ fields ∈ sheet.unmarked.headers :: sheet.body, fields ≠ [] := by
    obtain ⟨first, second, others, rfl⟩ := h.exists_pair
    intro fields hfields
    rcases List.mem_cons.mp hfields with rfl | hbody
    · exact List.cons_ne_nil _ _
    · obtain ⟨index, -, rfl⟩ := List.mem_map.mp hbody
      exact List.cons_ne_nil _ _
  have hfeeds : sheet.unmarked.headers.flatten.count '\n' = 0 := by
    refine List.count_eq_zero.mpr fun hfeed => ?_
    obtain ⟨header, hheader, hmem⟩ := List.mem_flatten.mp hfeed
    obtain ⟨column, hcolumn, rfl⟩ := List.mem_map.mp hheader
    exact absurd (h.plain_unmarked column hcolumn '\n' hmem).2.2 (by decide)
  rw [h.withoutMark_headerLine hdelimiter, ← h.unmarked_write hdelimiter,
    Table.records_writeRecords (Table.isDelimiter_of_mem hdelimiter) hne, readBack, hfeeds]

/-- What is compared of a header is left alone by marks and blanks in front of it. -/
theorem headerKey_withoutMarks (header : List Char) :
    Table.headerKey (String.ofList (Markup.withoutMarks header)) =
      Table.headerKey (String.ofList header) := by
  have hmark : ∀ c : Char, (c.toNat == 0xFEFF) = true → c.isAlphanum = false := by
    intro c hc
    refine Bool.eq_false_iff.mpr fun halphanum => ?_
    have hlow := toNat_of_isAlphanum halphanum
    have hhigh : c.toNat = 0xFEFF := by simpa using hc
    omega
  rw [Table.headerKey, Table.headerKey, String.toList_ofList, String.toList_ofList,
    Markup.withoutMarks, Text.filter_dropWhile hmark]

theorem headerKey_readField (header : List Char) :
    Table.headerKey (Table.readField header) = Table.headerKey (String.ofList header) := by
  have hblank : ∀ c : Char, Text.isBlank c = true → c.isAlphanum = false := by
    intro c hc
    refine Bool.eq_false_iff.mpr fun halphanum => ?_
    have hnone : Text.isBlank c = false :=
      Vendor.isBlank_of_isAlphanum (by rw [halphanum, Bool.true_or])
    exact Bool.false_ne_true (hnone.symm.trans hc)
  rw [Table.headerKey, Table.readField, Table.headerKey, String.toList_ofList,
    String.toList_ofList, Text.filter_trim hblank]

/-- The columns of a sheet are recognised, whatever stands at the ends of their headers. -/
theorem columnsOf_unmarked (sheet : Sheet rows) :
    columnsOf (sheet.unmarked.headers.map Table.readField) = sheet.map sheet.kind? := by
  have hkeys : (sheet.unmarked.headers.map Table.readField).map Table.headerKey = sheet.keys := by
    cases sheet with
    | nil => rfl
    | cons first others =>
        simp [unmarked, headers, keys, Function.comp_def, headerKey_readField,
          headerKey_withoutMarks]
  have hkind : sheet.kind? =
      Table.columnOf? (sheet.keys.contains "type" && sheet.keys.contains "datatype") ∘
        fun column => Table.headerKey (String.ofList column.header) := rfl
  rw [columnsOf, hkeys, hkind, ← List.map_map]
  rfl

/-- What is read of a sheet does not depend on its delimiter. -/
theorem IsPlain.entries_write (h : sheet.IsPlain) (hdelimiter : delimiter ∈ Table.delimiters)
    (hremark : ¬ sheet.BeginsWithRemark delimiter) :
    Csv.entries (write delimiter sheet) =
      Csv.entriesOf (sheet.map sheet.kind?) 1 (readBack 1 sheet.body) := by
  have hcut := Table.cutLine_append (h.isLine_headerLine hdelimiter).no_lineFeed
    (Table.writeRecords delimiter sheet.body)
  have hcolumns : ∀ kind ∈ Csv.requiredColumns.map Prod.fst,
      some kind ∈ sheet.map sheet.kind? := by
    intro kind hkind
    obtain ⟨column, hcolumn, hkind⟩ := h.required kind hkind
    exact List.mem_map.mpr ⟨column, hcolumn, hkind⟩
  unfold Csv.entries
  rw [h.header?_write hdelimiter hremark]
  dsimp only
  rw [hcut, h.delimiterOf_headerLine hdelimiter, h.records_write hdelimiter]
  dsimp only
  rw [columnsOf_unmarked, Csv.requiredColumns_of_forall hcolumns]

end Reading

end Sheet

/-- **The arrangement of a sheet does not matter.**  Tags, problems and faults with their rows are
the same for each delimiter and each order of the columns, unless the header line becomes a
remark. -/
theorem decode_arrangement {rows : Nat} {sheet other : Sheet rows} (h : sheet.IsPlain)
    (hperm : sheet.Perm other) {delimiter another : Char}
    (hdelimiter : delimiter ∈ Table.delimiters) (hanother : another ∈ Table.delimiters)
    (hremark : ¬ sheet.BeginsWithRemark delimiter) (hother : ¬ other.BeginsWithRemark another)
    (vendor : Vendor) :
    decode vendor .csv (sheet.write delimiter).toUTF8 =
      decode vendor .csv (other.write another).toUTF8 := by
  have halike := Sheet.alike_readBack h hperm 1 (List.finRange rows)
  rw [decode_csv, decode_csv, h.entries_write hdelimiter hremark,
    (h.of_perm hperm).entries_write hanother hother, Sheet.body, Sheet.body,
    Csv.entriesOf_eq_of_alike halike]

/-- The names and the types of a sheet with one tag. -/
def namesAndTypes : Sheet 1 :=
  [⟨"Name".toList, fun _ => "Pump".toList⟩, ⟨"Type".toList, fun _ => "BOOL".toList⟩]

/-- A column with a header that no one knows. -/
def remarks : Sheet 1 :=
  [⟨"Remark".toList, fun _ => "x".toList⟩]

theorem decode_arrangement_remarks :
    ((namesAndTypes ++ remarks).IsPlain ∧
      (namesAndTypes ++ remarks).Perm (namesAndTypes.reverse ++ remarks) ∧
      ',' ∈ Table.delimiters ∧ ';' ∈ Table.delimiters ∧
      ¬ Sheet.BeginsWithRemark ',' (namesAndTypes ++ remarks) ∧
      ¬ Sheet.BeginsWithRemark ';' (namesAndTypes.reverse ++ remarks)) ∧
      decode .rockwell .csv (Sheet.write ',' (namesAndTypes ++ remarks)).toUTF8 =
        decode .rockwell .csv (Sheet.write ';' (namesAndTypes.reverse ++ remarks)).toUTF8 := by
  have hplain : Sheet.IsPlain (namesAndTypes ++ remarks) := by decide +kernel
  have hperm : (namesAndTypes ++ remarks).Perm (namesAndTypes.reverse ++ remarks) :=
    (List.reverse_perm namesAndTypes).symm.append_right remarks
  have hfirst : ¬ Sheet.BeginsWithRemark ',' (namesAndTypes ++ remarks) := by decide +kernel
  have hother : ¬ Sheet.BeginsWithRemark ';' (namesAndTypes.reverse ++ remarks) := by
    decide +kernel
  exact ⟨⟨hplain, hperm, by decide, by decide, hfirst, hother⟩,
    decode_arrangement hplain hperm (by decide) (by decide) hfirst hother .rockwell⟩

/-- In front of the others, the column of the remarks makes the header line one of them. -/
theorem decode_remarks_first :
    Sheet.IsPlain (namesAndTypes ++ remarks) ∧
      (namesAndTypes ++ remarks).Perm (remarks ++ namesAndTypes) ∧
      (decode .rockwell .csv (Sheet.write ',' (namesAndTypes ++ remarks)).toUTF8).map
          Decoded.tags = .ok
        [{ name := "Pump", dataType := .bool, scope := .local, category := .memory,
           vendor := .rockwell }] ∧
      decode .rockwell .csv (Sheet.write ',' (remarks ++ namesAndTypes)).toUTF8 =
        .error ⟨.row 2, .missingColumn "name"⟩ := by
  have hplain : Sheet.IsPlain (namesAndTypes ++ remarks) := by decide +kernel
  have hread : Csv.entries (Sheet.write ',' (namesAndTypes ++ remarks)) = _ :=
    hplain.entries_write (by decide) (by decide +kernel)
  refine ⟨hplain, List.perm_append_comm, ?_, ?_⟩
  · rw [decode_csv, hread]
    decide +kernel
  · have hskipped := Table.headerFrom_step
      (show Table.IsLine "Remark,Name,Type".toList by decide) 1 "x,Pump,BOOL\n".toList
    have hfound := Table.headerFrom_step (show Table.IsLine "x,Pump,BOOL".toList by decide) 2 []
    rw [if_pos (by decide +kernel)] at hskipped
    rw [if_neg (by decide +kernel)] at hfound
    have hheader : Table.header? (Markup.withoutMarks
        (Sheet.write ',' (remarks ++ namesAndTypes)).toList) =
          some (2, "x,Pump,BOOL\n".toList) := by
      rw [Sheet.write, String.toList_ofList]
      exact hskipped.trans hfound
    have hentries : Csv.entries (Sheet.write ',' (remarks ++ namesAndTypes)) =
        .error ⟨.row 2, .missingColumn "name"⟩ := by
      rw [Csv.entries, hheader]
      decide +kernel
    rw [decode_csv, hentries]
    rfl

end PlcTags.Container
