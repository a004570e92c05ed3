import PlcTags.Proofs.Table.Cell

/-!
# Written records are read back

`records_writeRecords`: a table that was written is read back record by record,
with its fields trimmed and each record on the line on which it begins.

A field is written as a cell that holds it, bare or between quotes (`cellOf`), and a
record as these cells (`exists_writeRecord_eq`); it is read as any other record is
(`recordsFrom_record`).

The line of a record only depends on the line feeds that stand before it, which
`readBack` counts.
-/

namespace PlcTags.Table

variable {delimiter : Char}

/-! ## Characters with a meaning -/

theorem IsDelimiter.ne_lineFeed (h : IsDelimiter delimiter) : delimiter ≠ '\n' := by
  rintro rfl
  exact absurd h.2 (by decide)

theorem plain_of_not_needsQuotes {field : List Char} (h : needsQuotes delimiter field = false)
    {c : Char} (hc : c ∈ field) : c ≠ delimiter ∧ c ≠ '"' ∧ isLineEnd c = false := by
  have := List.any_eq_false.mp h c hc
  simp only [Bool.or_eq_true, beq_iff_eq, not_or, Bool.not_eq_true] at this
  exact ⟨this.1.1, this.1.2, this.2⟩

/-- A field is followed by a delimiter or a line feed. -/
def FollowsField (delimiter c : Char) : Prop :=
  c = delimiter ∨ c = '\n'

theorem FollowsField.endsCell {c : Char} (h : FollowsField delimiter c) (rest : List Char) :
    EndsCell delimiter (c :: rest) := by
  intro d hd
  obtain rfl := Option.some.inj hd
  rcases h with hdelimiter | rfl
  · exact .inl hdelimiter
  · exact .inr rfl

/-! ## Fields -/

/-- A field as it is read back. -/
def readField (field : List Char) : String :=
  String.ofList (Text.trim field)

/-- The cell that is written for a field. -/
def cellOf (delimiter : Char) (field : List Char) : Cell :=
  if needsQuotes delimiter field then .quoted field [] else .bare field

section Fields

variable (delimiter) (field : List Char)

theorem written_cellOf : (cellOf delimiter field).written = writeField delimiter field := by
  rw [cellOf, writeField]
  split
  · exact List.append_nil _
  · rfl

theorem content_cellOf : (cellOf delimiter field).content = field := by
  rw [cellOf]
  split
  · exact List.append_nil _
  · rfl

theorem fits_cellOf {rest : List Char} (hrest : EndsCell delimiter rest) :
    (cellOf delimiter field).Fits delimiter rest := by
  rw [cellOf]
  split
  · exact ⟨⟨List.forall_mem_nil _, Option.not_mem_none _⟩, hrest⟩
  · rename_i hneeds
    have hplain := fun c (hc : c ∈ field) =>
      plain_of_not_needsQuotes (Bool.not_eq_true _ ▸ hneeds) hc
    refine ⟨⟨fun c hc => ⟨(hplain c hc).1, (hplain c hc).2.2⟩, fun hquote => ?_⟩, hrest⟩
    exact (hplain '"' (List.mem_of_mem_head? hquote)).2.1 rfl

end Fields

/-! ## Records -/

/-- The cells that are written for a record. -/
def cellsOf (delimiter : Char) : List (List Char) → List Cell
  | [[]] => [.quoted [] []]
  | fields => fields.map (cellOf delimiter)

theorem cellsOf_of_ne {fields : List (List Char)} (h : fields ≠ [[]]) :
    cellsOf delimiter fields = fields.map (cellOf delimiter) := by
  rw [cellsOf]
  exact h

theorem content_cellsOf (delimiter : Char) (fields : List (List Char)) :
    (cellsOf delimiter fields).map Cell.content = fields := by
  by_cases hempty : fields = [[]]
  · rw [hempty]
    rfl
  · have hcontent : Cell.content ∘ cellOf delimiter = id :=
      funext fun field => content_cellOf delimiter field
    rw [cellsOf_of_ne hempty, List.map_map, hcontent, List.map_id]

theorem written_fields {fields : List (List Char)} (hne : fields ≠ []) (rest : List Char) :
    Written delimiter ('\n' :: rest) (fields.map (cellOf delimiter))
      ([delimiter].intercalate (fields.map (writeField delimiter))) := by
  induction fields with
  | nil => exact absurd rfl hne
  | cons field fields ih =>
      -- The last field is followed by the line feed, all others by a delimiter.
      cases fields with
      | nil =>
          have hone : [delimiter].intercalate ([field].map (writeField delimiter)) =
              (cellOf delimiter field).written := by simp [List.intercalate, written_cellOf]
          have hends : EndsRecord ('\n' :: rest) := endsRecord_cons rfl rest
          rw [hone]
          exact .last (fits_cellOf delimiter field hends.endsCell) hends
      | cons next fields =>
          have hmore : [delimiter].intercalate
              ((field :: next :: fields).map (writeField delimiter)) =
                (cellOf delimiter field).written ++ delimiter ::
                  [delimiter].intercalate ((next :: fields).map (writeField delimiter)) := by
            simp [List.intercalate, written_cellOf]
          have hfollows : FollowsField delimiter delimiter := .inl rfl
          rw [hmore]
          exact .more (fits_cellOf delimiter field (hfollows.endsCell _)) (ih (List.cons_ne_nil _ _))

theorem exists_writeField_eq_cons (delimiter : Char) {field : List Char} (hne : field ≠ []) :
    ∃ c rest, writeField delimiter field = c :: rest ∧ isLineEnd c = false := by
  rw [writeField]
  by_cases hneeds : needsQuotes delimiter field = true
  · exact ⟨'"', doubleQuotes field ++ ['"'], by rw [if_pos hneeds]; rfl, by decide⟩
  · cases field with
    | nil => exact absurd rfl hne
    | cons c rest =>
        refine ⟨c, rest, by rw [if_neg hneeds], ?_⟩
        exact (plain_of_not_needsQuotes (Bool.not_eq_true _ ▸ hneeds) List.mem_cons_self).2.2

/-- The line of a record has at least one character, and begins with no end of a line. -/
theorem exists_writeRecord_eq_cons (hdelimiter : IsDelimiter delimiter)
    {fields : List (List Char)} (hne : fields ≠ []) :
    ∃ c rest, writeRecord delimiter fields = c :: rest ∧ isLineEnd c = false := by
  match fields with
  | [] => exact absurd rfl hne
  | [[]] => exact ⟨'"', ['"', '\n'], rfl, by decide⟩
  | [c :: field] =>
      obtain ⟨d, rest, hwrite, hd⟩ :=
        exists_writeField_eq_cons delimiter (List.cons_ne_nil c field)
      exact ⟨d, rest ++ ['\n'], by simp [writeRecord, List.intercalate, hwrite], hd⟩
  | [] :: next :: fields =>
      refine ⟨delimiter, [delimiter].intercalate ((next :: fields).map (writeField delimiter)) ++
        ['\n'], ?_, hdelimiter.2⟩
      have hempty : writeField delimiter [] = [] := rfl
      simp [writeRecord, List.intercalate, hempty]
  | (c :: field) :: next :: fields =>
      obtain ⟨d, rest, hwrite, hd⟩ :=
        exists_writeField_eq_cons delimiter (List.cons_ne_nil c field)
      refine ⟨d, rest ++ delimiter ::
        [delimiter].intercalate ((next :: fields).map (writeField delimiter)) ++ ['\n'], ?_, hd⟩
      simp [writeRecord, List.intercalate, hwrite]

/-- A record is written as its cells and a line feed. -/
theorem exists_writeRecord_eq (hdelimiter : IsDelimiter delimiter)
    {fields : List (List Char)} (hne : fields ≠ []) (rest : List Char) :
    ∃ raw, writeRecord delimiter fields = raw ++ ['\n'] ∧ ¬ EndsRecord raw ∧
      Written delimiter ('\n' :: rest) (cellsOf delimiter fields) raw := by
  obtain ⟨raw, hwrite, hwritten⟩ : ∃ raw, writeRecord delimiter fields = raw ++ ['\n'] ∧
      Written delimiter ('\n' :: rest) (cellsOf delimiter fields) raw := by
    by_cases hempty : fields = [[]]
    · -- A record of one empty field stands between quotes.
      have hends : EndsRecord ('\n' :: rest) := endsRecord_cons rfl rest
      rw [hempty]
      exact ⟨['"', '"'], rfl,
        .last ⟨⟨List.forall_mem_nil _, Option.not_mem_none _⟩, hends.endsCell⟩ hends⟩
    · refine ⟨_, ?_, cellsOf_of_ne hempty ▸ written_fields hne rest⟩
      rw [writeRecord]
      exact hempty
  refine ⟨raw, hwrite, fun hends => ?_, hwritten⟩
  -- The first character of the record is none that ends it.
  obtain ⟨c, tail, hcons, hc⟩ := exists_writeRecord_eq_cons hdelimiter hne
  rw [hwrite] at hcons
  have hend : isLineEnd c = true := by
    cases raw with
    | nil =>
        obtain ⟨rfl, -⟩ := List.cons.inj hcons
        rfl
    | cons d raw =>
        obtain ⟨rfl, -⟩ := List.cons.inj hcons
        exact hends d rfl
  exact Bool.false_ne_true (hc.symm.trans hend)

theorem Written.count_lineFeed (hdelimiter : IsDelimiter delimiter) {rest raw : List Char}
    {cells : List Cell} (h : Written delimiter rest cells raw) :
    raw.count '\n' = (cells.map Cell.content).flatten.count '\n' := by
  induction h with
  | @last cell fits ends => simp [cell.count_written]
  | @more cell cells raw fits others ih =>
      rw [List.count_append, List.count_cons_of_ne hdelimiter.ne_lineFeed, ih, cell.count_written,
        List.map_cons, List.flatten_cons, List.count_append]

/-- The records of a table that was written after `lineFeeds` line feeds. -/
def readBack (lineFeeds : Nat) : List (List (List Char)) → List Record
  | [] => []
  | fields :: table =>
    ⟨lineFeeds + 1, fields.map readField⟩ ::
      readBack (lineFeeds + fields.flatten.count '\n' + 1) table

theorem recordsFrom_writeRecord (hdelimiter : IsDelimiter delimiter)
    {fields : List (List Char)} (hne : fields ≠ []) (lineFeeds : Nat) (rest : List Char) :
    recordsFrom delimiter .recordStart (.start lineFeeds)
        (writeRecord delimiter fields ++ rest) =
      ⟨lineFeeds + 1, fields.map readField⟩ ::
        recordsFrom delimiter .recordStart
          (.start (lineFeeds + fields.flatten.count '\n' + 1)) rest := by
  obtain ⟨raw, hwrite, hbegins, hwritten⟩ := exists_writeRecord_eq hdelimiter hne rest
  have hfields : (cellsOf delimiter fields).map Cell.field = fields.map readField := by
    have hfield : Cell.field = readField ∘ Cell.content := rfl
    rw [hfield, ← List.map_map, content_cellsOf]
  have hfeeds : raw.count '\n' = fields.flatten.count '\n' := by
    rw [hwritten.count_lineFeed hdelimiter, content_cellsOf]
  rw [hwrite, List.append_assoc, List.singleton_append, Draft.start,
    recordsFrom_record hdelimiter hbegins hwritten, hfields, hfeeds]
  rfl

theorem recordsFrom_writeRecords (hdelimiter : IsDelimiter delimiter)
    {table : List (List (List Char))} (hne : ∀ fields ∈ table, fields ≠ []) (lineFeeds : Nat) :
    recordsFrom delimiter .recordStart (.start lineFeeds) (writeRecords delimiter table) =
      readBack lineFeeds table := by
  induction table generalizing lineFeeds with
  | nil => rfl
  | cons fields table ih =>
      rw [writeRecords, List.flatMap_cons,
        recordsFrom_writeRecord hdelimiter (hne fields List.mem_cons_self), readBack,
        ← ih fun other hother => hne other (List.mem_cons_of_mem _ hother)]
      rfl

/-- A table that was written is read back, its fields trimmed. -/
theorem records_writeRecords (hdelimiter : IsDelimiter delimiter)
    {table : List (List (List Char))} (hne : ∀ fields ∈ table, fields ≠ []) :
    records delimiter (writeRecords delimiter table) = readBack 0 table :=
  recordsFrom_writeRecords hdelimiter hne 0

end PlcTags.Table
