import PlcTags.Table.Record

/-!
# Records as they stand in a text

Every text is a table: ends of lines that are passed over, records, and nothing else
(`exists_stands`).  A record is a list of cells.  A cell stands there bare, or between quotes
with something behind them that belongs to it, or behind a quote that is never closed; this
one goes on to the end of the text.

The reader finds just these records (`recordsFrom_of_stands`).  It is a machine over places,
so the proof follows a cell through it.  Inside of quotes everything is added, and a quote
that is written twice leads from the quoted place behind a quote and back
(`recordsFrom_doubleQuotes`).  A cell may leave the machine in three places, but what ends the
cell is read in all of them as it is behind a bare one (`recordsFrom_bareText`).

A record is counted to the line on which it is sought, and not to that of its first
character.  The two differ by the line feeds that are passed over in between
(`Located.line_eq`).
-/

namespace PlcTags.Table

/-! ## Cells -/

/-- A character that can separate fields: no quote, and no end of a line. -/
def IsDelimiter (c : Char) : Prop :=
  c ≠ '"' ∧ isLineEnd c = false

instance (c : Char) : Decidable (IsDelimiter c) :=
  inferInstanceAs (Decidable (_ ∧ _))

/-- A cell as it stands in a table. -/
inductive Cell where
  | bare (text : List Char)
  /-- Between quotes, with what follows the closing quote. -/
  | quoted (text tail : List Char)
  /-- Behind a quote that is never closed. -/
  | unclosed (text : List Char)
  deriving DecidableEq, Repr

namespace Cell

/-- The characters of the cell. -/
def written : Cell → List Char
  | bare text => text
  | quoted text tail => writeQuoted text ++ tail
  | unclosed text => '"' :: doubleQuotes text

/-- What the cell holds. -/
def content : Cell → List Char
  | bare text => text
  | quoted text tail => text ++ tail
  | unclosed text => text

/-- The field that is read from the cell. -/
def field (cell : Cell) : String :=
  String.ofList (Text.trim cell.content)

end Cell

variable {delimiter : Char} {text rest raw : List Char} {cell : Cell} {cells : List Cell}

/-- What may follow a cell: a delimiter, the end of a line, or nothing. -/
def EndsCell (delimiter : Char) (rest : List Char) : Prop :=
  ∀ c ∈ rest.head?, c = delimiter ∨ isLineEnd c = true

/-- What may follow a record: the end of a line, or nothing. -/
def EndsRecord (rest : List Char) : Prop :=
  ∀ c ∈ rest.head?, isLineEnd c = true

instance : Decidable (EndsCell delimiter rest) :=
  match rest with
  | [] => isTrue fun c hc => by cases hc
  | c :: _ => decidable_of_iff (c = delimiter ∨ isLineEnd c = true)
      ⟨fun h d hd => Option.some.inj hd ▸ h, fun h => h c rfl⟩

instance : Decidable (EndsRecord rest) :=
  match rest with
  | [] => isTrue fun c hc => by cases hc
  | c :: _ => decidable_of_iff (isLineEnd c = true)
      ⟨fun h d hd => Option.some.inj hd ▸ h, fun h => h c rfl⟩

theorem endsRecord_nil : EndsRecord [] :=
  fun c hc => by cases hc

theorem endsRecord_cons {c : Char} (hc : isLineEnd c = true) (rest : List Char) :
    EndsRecord (c :: rest) :=
  fun _ hd => Option.some.inj hd ▸ hc

theorem EndsRecord.endsCell (h : EndsRecord rest) : EndsCell delimiter rest :=
  fun c hc => .inr (h c hc)

/-- Outside of quotes, a text that begins with no quote and ends neither cell nor record. -/
structure IsBare (delimiter : Char) (text : List Char) : Prop where
  plain : ∀ c ∈ text, c ≠ delimiter ∧ isLineEnd c = false
  no_quote : '"' ∉ text.head?

instance : Decidable (IsBare delimiter text) :=
  decidable_of_iff
    ((text.all fun c => c != delimiter && !isLineEnd c) = true ∧ text.head? ≠ some '"')
    ⟨fun h => ⟨fun c hc => by simpa using List.all_eq_true.mp h.1 c hc, h.2⟩,
      fun h => ⟨List.all_eq_true.mpr fun c hc => by simpa using h.plain c hc, h.no_quote⟩⟩

/-- A cell can stand in front of a text. -/
def Cell.Fits (delimiter : Char) (rest : List Char) : Cell → Prop
  | .bare text => IsBare delimiter text ∧ EndsCell delimiter rest
  | .quoted _ tail => IsBare delimiter tail ∧ EndsCell delimiter rest
  | .unclosed _ => rest = []

instance : Decidable (cell.Fits delimiter rest) :=
  match cell with
  | .bare _ => inferInstanceAs (Decidable (_ ∧ _))
  | .quoted _ _ => inferInstanceAs (Decidable (_ ∧ _))
  | .unclosed _ => inferInstanceAs (Decidable (rest = []))

theorem Cell.Fits.endsCell (h : cell.Fits delimiter rest) : EndsCell delimiter rest := by
  cases cell with
  | bare text => exact h.2
  | quoted text tail => exact h.2
  | unclosed text =>
      obtain rfl : rest = [] := h
      exact endsRecord_nil.endsCell

theorem not_endsRecord_append (h : ¬ EndsRecord text) (rest : List Char) :
    ¬ EndsRecord (text ++ rest) := by
  cases text with
  | nil => exact absurd endsRecord_nil h
  | cons c text => exact h

/-- Cells of a record in front of a text, with delimiters between them. -/
inductive Written (delimiter : Char) (rest : List Char) : List Cell → List Char → Prop
  | last {cell : Cell} (fits : cell.Fits delimiter rest) (ends : EndsRecord rest) :
      Written delimiter rest [cell] cell.written
  | more {cell : Cell} {cells : List Cell} {raw : List Char}
      (fits : cell.Fits delimiter (delimiter :: raw)) (others : Written delimiter rest cells raw) :
      Written delimiter rest (cell :: cells) (cell.written ++ delimiter :: raw)

theorem Written.endsRecord (h : Written delimiter rest cells raw) : EndsRecord rest := by
  induction h with
  | last fits ends => exact ends
  | more fits others ih => exact ih

/-- A quote that is never closed takes up all the rest. -/
theorem Written.of_unclosed {inner : List Char} (h : Written delimiter rest cells raw)
    (hcell : .unclosed inner ∈ cells) :
    rest = [] ∧ cells.getLast? = some (.unclosed inner) ∧
      ∃ before, raw = before ++ '"' :: doubleQuotes inner := by
  induction h with
  | @last cell fits ends =>
      obtain rfl := List.mem_singleton.mp hcell
      exact ⟨fits, rfl, [], rfl⟩
  | @more cell cells raw fits others ih =>
      rcases List.mem_cons.mp hcell with rfl | hcell
      · -- Behind such a cell there is no delimiter.
        exact absurd fits (List.cons_ne_nil _ _)
      · obtain ⟨hrest, hlast, before, rfl⟩ := ih hcell
        refine ⟨hrest, ?_, cell.written ++ delimiter :: before, by simp⟩
        rw [List.getLast?_cons, hlast]
        rfl

/-- Of what follows a cell only the beginning matters. -/
theorem Cell.Fits.congr {other : List Char} (h : cell.Fits delimiter rest)
    (hhead : rest.head? = other.head?) : cell.Fits delimiter other := by
  have hends : EndsCell delimiter other := by
    rw [EndsCell, ← hhead]
    exact h.endsCell
  cases cell with
  | bare text => exact ⟨h.1, hends⟩
  | quoted text tail => exact ⟨h.1, hends⟩
  | unclosed text =>
      obtain rfl : rest = [] := h
      exact List.head?_eq_none_iff.mp hhead.symm

/-! ## Records -/

/-- A record and where it stands. -/
structure Located where
  /-- Everything in front of the place from which on the record is sought. -/
  front : List Char
  /-- The ends of lines that are passed over before its first character. -/
  passed : List Char
  cells : List Cell
  deriving DecidableEq, Repr

namespace Located

/-- The fields of the record, as they are read. -/
def fields (located : Located) : List String :=
  located.cells.map Cell.field

/-- The line on which the first character of the record stands. -/
def line (located : Located) : Nat :=
  (located.front ++ located.passed).count '\n' + 1

/-- The line on which the record is sought. -/
def sought (located : Located) : Nat :=
  located.front.count '\n' + 1

/-- The record as the reader counts it. -/
def record (located : Located) : Record :=
  ⟨located.sought, located.fields⟩

theorem line_eq (located : Located) :
    located.line = located.sought + located.passed.count '\n' := by
  rw [line, sought, List.count_append]
  omega

/-- A record is sought on its own line unless a line feed is passed over. -/
theorem sought_eq_line_iff (located : Located) :
    located.sought = located.line ↔ '\n' ∉ located.passed := by
  rw [line_eq, ← List.count_eq_zero]
  omega

end Located

/-- The records of a text that stands behind `front`. -/
inductive Stands (delimiter : Char) : List Char → List Char → List Located → Prop
  | none {front passed : List Char} (ends : ∀ c ∈ passed, isLineEnd c = true) :
      Stands delimiter front passed []
  | last {front passed raw : List Char} {cells : List Cell}
      (ends : ∀ c ∈ passed, isLineEnd c = true) (begins : ¬ EndsRecord raw)
      (written : Written delimiter [] cells raw) :
      Stands delimiter front (passed ++ raw) [⟨front, passed, cells⟩]
  | more {front passed raw rest : List Char} {ending : Char} {cells : List Cell}
      {located : List Located}
      (ends : ∀ c ∈ passed, isLineEnd c = true) (begins : ¬ EndsRecord raw)
      (written : Written delimiter (ending :: rest) cells raw)
      (others : Stands delimiter (front ++ passed ++ raw ++ [ending]) rest located) :
      Stands delimiter front (passed ++ (raw ++ ending :: rest))
        (⟨front, passed, cells⟩ :: located)

theorem Stands.front_eq {front : List Char} {located : Located} {others : List Located}
    (h : Stands delimiter front text (located :: others)) : located.front = front := by
  cases h <;> rfl

/-- Each record stands in the text behind what stands in front of it. -/
theorem Stands.exists_of_mem {front : List Char} {located : List Located} {record : Located}
    (h : Stands delimiter front text located) (hrecord : record ∈ located) :
    ∃ raw rest, front ++ text = record.front ++ record.passed ++ raw ++ rest ∧
      ¬ EndsRecord raw ∧ Written delimiter rest record.cells raw := by
  induction h with
  | none ends => cases hrecord
  | @last front passed raw cells ends begins written =>
      obtain rfl := List.mem_singleton.mp hrecord
      exact ⟨raw, [], by simp, begins, written⟩
  | @more front passed raw rest ending cells located ends begins written others ih =>
      rcases List.mem_cons.mp hrecord with rfl | hrecord
      · exact ⟨raw, ending :: rest, by simp, begins, written⟩
      · obtain ⟨behind, left, hsplit, hraw⟩ := ih hrecord
        exact ⟨behind, left, by rw [← hsplit]; simp, hraw⟩

/-- Behind a record with a quote that is never closed there is none. -/
theorem Stands.getLast?_of_unclosed {front inner : List Char} {located : List Located}
    {record : Located} (h : Stands delimiter front text located) (hrecord : record ∈ located)
    (hcell : .unclosed inner ∈ record.cells) : located.getLast? = some record := by
  induction h with
  | none ends => cases hrecord
  | @last front passed raw cells ends begins written =>
      obtain rfl := List.mem_singleton.mp hrecord
      rfl
  | @more front passed raw rest ending cells located ends begins written others ih =>
      rcases List.mem_cons.mp hrecord with rfl | hrecord
      · exact absurd (written.of_unclosed hcell).1 (List.cons_ne_nil _ _)
      · rw [List.getLast?_cons, ih hrecord]
        rfl

/-! ## Reading cells -/

theorem count_of_not_lineEnd (draft : Draft) {c : Char} (h : isLineEnd c = false) :
    draft.count c = draft := by
  rw [Draft.count, if_neg]
  rintro rfl
  exact absurd h (by decide)

theorem Draft.lineFeeds_count (draft : Draft) (c : Char) :
    (draft.count c).lineFeeds = draft.lineFeeds + [c].count '\n' := by
  by_cases hfeed : c = '\n'
  · subst hfeed
    rfl
  · simp [Draft.count, hfeed]

theorem count_lineFeed_of_plain (h : ∀ c ∈ text, isLineEnd c = false) : text.count '\n' = 0 :=
  List.count_eq_zero.mpr fun hmem => absurd (h '\n' hmem) (by decide)

theorem recordsFrom_bare (h : ∀ c ∈ text, c ≠ delimiter ∧ isLineEnd c = false) (draft : Draft)
    (rest : List Char) :
    recordsFrom delimiter .bare draft (text ++ rest) =
      recordsFrom delimiter .bare { draft with field := text.reverse ++ draft.field } rest := by
  induction text generalizing draft with
  | nil => rfl
  | cons c text ih =>
      obtain ⟨hdelimiter, hend⟩ := h c List.mem_cons_self
      have hread : readPlace delimiter .bare c = (.bare, .add) := by
        simp [readPlace, readBare, hdelimiter, hend]
      rw [List.cons_append, recordsFrom]
      simp only [hread, count_of_not_lineEnd draft hend]
      rw [ih fun d hd => h d (List.mem_cons_of_mem _ hd)]
      simp

/-- Up to a closing quote everything is added, and a doubled quote once. -/
theorem recordsFrom_doubleQuotes (text : List Char) (draft : Draft) (rest : List Char) :
    recordsFrom delimiter .quoted draft (doubleQuotes text ++ rest) =
      recordsFrom delimiter .quoted
        { draft with
          lineFeeds := draft.lineFeeds + text.count '\n'
          field := text.reverse ++ draft.field } rest := by
  induction text generalizing draft with
  | nil => rfl
  | cons c text ih =>
      by_cases hquote : c = '"'
      · subst hquote
        -- The first of the two quotes leads out, the second one back in.
        have hdouble : doubleQuotes ('"' :: text) = '"' :: '"' :: doubleQuotes text := rfl
        have hseen : readPlace delimiter .quoted '"' = (.quoteSeen, .skip) := rfl
        have hback : readPlace delimiter .quoteSeen '"' = (.quoted, .add) := rfl
        have hcount : ∀ draft : Draft, draft.count '"' = draft := fun draft =>
          count_of_not_lineEnd draft (by decide)
        rw [hdouble, List.cons_append, List.cons_append, recordsFrom]
        simp only [hseen, hcount]
        rw [recordsFrom]
        simp only [hback, hcount]
        rw [ih]
        simp
      · have hsingle : doubleQuotes (c :: text) = c :: doubleQuotes text := by
          simp [doubleQuotes, hquote]
        have hread : readPlace delimiter .quoted c = (.quoted, .add) := by
          simp [readPlace, hquote]
        rw [hsingle, List.cons_append, recordsFrom]
        simp only [hread]
        rw [ih]
        by_cases hfeed : c = '\n'
        · subst hfeed
          have hsum : draft.lineFeeds + 1 + text.count '\n' =
              draft.lineFeeds + (text.count '\n' + 1) := by omega
          simp [Draft.count, hsum]
        · simp [Draft.count, hfeed]

/-- Wherever a cell has led, a bare text and what ends the cell are read alike. -/
theorem recordsFrom_bareText (hdelimiter : IsDelimiter delimiter) (htext : IsBare delimiter text)
    (hrest : EndsCell delimiter rest) {place : Place}
    (hplace : place = .fieldStart ∨ place = .quoteSeen) (draft : Draft) :
    recordsFrom delimiter place draft (text ++ rest) =
      recordsFrom delimiter .bare { draft with field := text.reverse ++ draft.field } rest := by
  -- Only a quote is read differently, and neither the text nor what follows begins with one.
  have hread : ∀ c, c ≠ '"' → readPlace delimiter place c = readPlace delimiter .bare c := by
    intro c hc
    rcases hplace with rfl | rfl <;> simp [readPlace, readFieldStart, hc]
  have hstart : place ≠ .recordStart := by
    rcases hplace with rfl | rfl <;> decide
  have hquote : '"' ∉ (text ++ rest).head? := by
    rw [List.head?_append]
    cases htexthead : text.head? with
    | some c =>
        have hhead := htext.no_quote
        rw [htexthead] at hhead
        exact hhead
    | none =>
        intro hmem
        rcases hrest '"' (by simpa using hmem) with heq | hend
        · exact hdelimiter.1 heq.symm
        · exact absurd hend (by decide)
  have hbare : recordsFrom delimiter place draft (text ++ rest) =
      recordsFrom delimiter .bare draft (text ++ rest) := by
    cases hall : text ++ rest with
    | nil => rw [recordsFrom, recordsFrom, if_neg hstart, if_neg (by decide)]
    | cons c tail =>
        rw [hall] at hquote
        rw [recordsFrom, recordsFrom, hread c fun heq => hquote (by rw [heq]; rfl)]
  rw [hbare, recordsFrom_bare htext.plain]

theorem count_doubleQuotes (text : List Char) :
    (doubleQuotes text).count '\n' = text.count '\n' := by
  induction text with
  | nil => rfl
  | cons c text ih =>
      have hcons : doubleQuotes (c :: text) =
          (if c = '"' then ['"', '"'] else [c]) ++ doubleQuotes text := rfl
      rw [hcons, List.count_append, ih]
      by_cases hquote : c = '"'
      · simp [hquote]
      · simp [hquote, List.count_cons, Nat.add_comm]

theorem Cell.count_written (cell : Cell) :
    cell.written.count '\n' = cell.content.count '\n' := by
  cases cell with
  | bare text => rfl
  | quoted text tail => simp [written, content, writeQuoted, count_doubleQuotes]
  | unclosed text => simp [written, content, count_doubleQuotes]

theorem recordsFrom_openQuote (draft : Draft) (rest : List Char) :
    recordsFrom delimiter .fieldStart draft ('"' :: rest) =
      recordsFrom delimiter .quoted draft rest := by
  have hread : readPlace delimiter .fieldStart '"' = (.quoted, .skip) := rfl
  rw [recordsFrom]
  simp only [hread, count_of_not_lineEnd draft (show isLineEnd '"' = false by decide)]

theorem recordsFrom_closeQuote (draft : Draft) (rest : List Char) :
    recordsFrom delimiter .quoted draft ('"' :: rest) =
      recordsFrom delimiter .quoteSeen draft rest := by
  have hread : readPlace delimiter .quoted '"' = (.quoteSeen, .skip) := rfl
  rw [recordsFrom]
  simp only [hread, count_of_not_lineEnd draft (show isLineEnd '"' = false by decide)]

/-- **A cell is read up to what ends it.** -/
theorem recordsFrom_cell (hdelimiter : IsDelimiter delimiter) (h : cell.Fits delimiter rest)
    {draft : Draft} (hdraft : draft.field = []) :
    recordsFrom delimiter .fieldStart draft (cell.written ++ rest) =
      recordsFrom delimiter .bare
        { draft with
          lineFeeds := draft.lineFeeds + cell.written.count '\n'
          field := cell.content.reverse } rest := by
  rw [cell.count_written]
  cases cell with
  | bare text =>
      obtain ⟨htext, hrest⟩ := h
      rw [Cell.written, Cell.content, count_lineFeed_of_plain fun c hc => (htext.plain c hc).2,
        recordsFrom_bareText hdelimiter htext hrest (.inl rfl), hdraft, List.append_nil,
        Nat.add_zero]
  | quoted text tail =>
      obtain ⟨htail, hrest⟩ := h
      have htailFeeds := count_lineFeed_of_plain fun c hc => (htail.plain c hc).2
      have hwritten : (Cell.quoted text tail).written ++ rest =
          '"' :: (doubleQuotes text ++ '"' :: (tail ++ rest)) := by
        simp [Cell.written, writeQuoted]
      rw [hwritten, recordsFrom_openQuote, recordsFrom_doubleQuotes, recordsFrom_closeQuote,
        recordsFrom_bareText hdelimiter htail hrest (.inr rfl), hdraft, Cell.content,
        List.count_append, htailFeeds]
      simp
  | unclosed text =>
      obtain rfl : rest = [] := h
      rw [Cell.written, List.cons_append, recordsFrom_openQuote, recordsFrom_doubleQuotes, hdraft,
        List.append_nil]
      -- The text ends in quotes, and there the record is finished all the same.
      rfl

theorem recordsFrom_delimiter (hdelimiter : IsDelimiter delimiter) (draft : Draft)
    (rest : List Char) :
    recordsFrom delimiter .bare draft (delimiter :: rest) =
      recordsFrom delimiter .fieldStart draft.endField rest := by
  have hread : readPlace delimiter .bare delimiter = (.fieldStart, .endField) := by
    simp [readPlace, readBare]
  rw [recordsFrom]
  simp only [hread, count_of_not_lineEnd draft hdelimiter.2]

/-! ## Reading records -/

/-- A draft that has come from another one by reading these cells. -/
structure Draft.Reads (draft : Draft) (raw : List Char) (cells : List Cell) (final : Draft) :
    Prop where
  line : final.line = draft.line
  lineFeeds : final.lineFeeds = draft.lineFeeds + raw.count '\n'
  fields : final.field.reverse :: final.fields = (cells.map Cell.content).reverse ++ draft.fields

/-- The cells of a record are read up to its end. -/
theorem recordsFrom_written (hdelimiter : IsDelimiter delimiter)
    (h : Written delimiter rest cells raw) (draft : Draft) (hdraft : draft.field = []) :
    ∃ final, draft.Reads raw cells final ∧
      recordsFrom delimiter .fieldStart draft (raw ++ rest) =
        recordsFrom delimiter .bare final rest := by
  induction h generalizing draft with
  | @last cell fits ends =>
      refine ⟨{ draft with
        lineFeeds := draft.lineFeeds + cell.written.count '\n'
        field := cell.content.reverse }, ⟨rfl, rfl, ?_⟩, recordsFrom_cell hdelimiter fits hdraft⟩
      simp
  | @more cell cells raw fits others ih =>
      let next : Draft := { draft with
        lineFeeds := draft.lineFeeds + cell.written.count '\n'
        field := cell.content.reverse }
      obtain ⟨final, hreads, hrest⟩ := ih next.endField rfl
      refine ⟨final, ⟨hreads.line, ?_, ?_⟩, ?_⟩
      · have hfeed : delimiter ≠ '\n' := by
          rintro rfl
          exact absurd hdelimiter.2 (by decide)
        rw [hreads.lineFeeds, List.count_append, List.count_cons_of_ne hfeed]
        exact Nat.add_assoc _ _ _
      · rw [hreads.fields]
        simp [next, Draft.endField]
      · have hfits : cell.Fits delimiter (delimiter :: (raw ++ rest)) := fits.congr rfl
        rw [List.append_assoc, List.cons_append, recordsFrom_cell hdelimiter hfits hdraft,
          recordsFrom_delimiter hdelimiter, hrest]

theorem Draft.Reads.finish_eq {draft final : Draft} (h : draft.Reads raw cells final)
    (hfields : draft.fields = []) :
    final.finish = ⟨draft.line, cells.map Cell.field⟩ := by
  have hall : final.endField.fields = (cells.map Cell.content).reverse := by
    rw [Draft.endField, h.fields, hfields, List.append_nil]
  rw [Draft.finish, hall, h.line, List.reverse_reverse, List.map_map]
  rfl

/-- The end of a line ends a record. -/
theorem recordsFrom_lineEnd (hdelimiter : IsDelimiter delimiter) {ending : Char}
    (hend : isLineEnd ending = true) (draft : Draft) (rest : List Char) :
    recordsFrom delimiter .bare draft (ending :: rest) =
      draft.finish ::
        recordsFrom delimiter .recordStart (.start (draft.count ending).lineFeeds) rest := by
  have hne : ending ≠ delimiter := by
    rintro rfl
    exact Bool.false_ne_true (hdelimiter.2.symm.trans hend)
  have hread : readPlace delimiter .bare ending = (.recordStart, .endRecord) := by
    simp [readPlace, readBare, hne, hend]
  rw [recordsFrom]
  simp only [hread]

/-- Ends of lines in front of a record are passed over, and only counted. -/
theorem recordsFrom_passed {passed : List Char} (h : ∀ c ∈ passed, isLineEnd c = true)
    (draft : Draft) (rest : List Char) :
    recordsFrom delimiter .recordStart draft (passed ++ rest) =
      recordsFrom delimiter .recordStart
        { draft with lineFeeds := draft.lineFeeds + passed.count '\n' } rest := by
  induction passed generalizing draft with
  | nil => rfl
  | cons c passed ih =>
      have hread : readPlace delimiter .recordStart c = (.recordStart, .skip) := by
        simp [readPlace, h c List.mem_cons_self]
      rw [List.cons_append, recordsFrom]
      simp only [hread]
      rw [ih fun d hd => h d (List.mem_cons_of_mem _ hd)]
      by_cases hfeed : c = '\n'
      · subst hfeed
        simp [Draft.count, Nat.add_assoc, Nat.add_comm 1]
      · simp [Draft.count, hfeed]

/-- A record is read as if it began with its first field, because no record begins with
an end of a line. -/
theorem recordsFrom_recordStart (h : ¬ EndsRecord text) (draft : Draft) :
    recordsFrom delimiter .recordStart draft text =
      recordsFrom delimiter .fieldStart draft text := by
  cases text with
  | nil => exact absurd endsRecord_nil h
  | cons c rest =>
      have hc : isLineEnd c = false := by
        simpa [EndsRecord] using h
      have hread : readPlace delimiter .recordStart c = readPlace delimiter .fieldStart c := by
        simp [readPlace, hc]
      rw [recordsFrom, recordsFrom, hread]

/-- A record is read up to its end, and the search for the next one begins behind it. -/
theorem recordsFrom_record (hdelimiter : IsDelimiter delimiter) {ending : Char}
    (hbegins : ¬ EndsRecord raw) (hwritten : Written delimiter (ending :: rest) cells raw)
    (line lineFeeds : Nat) :
    recordsFrom delimiter .recordStart ⟨line, lineFeeds, [], []⟩ (raw ++ ending :: rest) =
      ⟨line, cells.map Cell.field⟩ ::
        recordsFrom delimiter .recordStart
          (.start (lineFeeds + raw.count '\n' + [ending].count '\n')) rest := by
  obtain ⟨final, hreads, hrest⟩ :=
    recordsFrom_written hdelimiter hwritten ⟨line, lineFeeds, [], []⟩ rfl
  rw [recordsFrom_recordStart (not_endsRecord_append hbegins _), hrest,
    recordsFrom_lineEnd hdelimiter (hwritten.endsRecord ending rfl), hreads.finish_eq rfl,
    Draft.lineFeeds_count, hreads.lineFeeds]

/-- The last record may be ended by the text. -/
theorem recordsFrom_lastRecord (hdelimiter : IsDelimiter delimiter)
    (hbegins : ¬ EndsRecord raw) (hwritten : Written delimiter [] cells raw)
    (line lineFeeds : Nat) :
    recordsFrom delimiter .recordStart ⟨line, lineFeeds, [], []⟩ raw =
      [⟨line, cells.map Cell.field⟩] := by
  obtain ⟨final, hreads, hrest⟩ :=
    recordsFrom_written hdelimiter hwritten ⟨line, lineFeeds, [], []⟩ rfl
  rw [List.append_nil] at hrest
  have hfinish : final.finish = ⟨line, cells.map Cell.field⟩ := hreads.finish_eq rfl
  rw [recordsFrom_recordStart hbegins, hrest, ← hfinish]
  rfl

/-- **The reader finds the records where they stand**, each counted to the line on which it
is sought. -/
theorem recordsFrom_of_stands (hdelimiter : IsDelimiter delimiter) {front : List Char}
    {located : List Located} (h : Stands delimiter front text located) :
    recordsFrom delimiter .recordStart (.start (front.count '\n')) text =
      located.map Located.record := by
  induction h with
  | @none front passed ends =>
      rw [← List.append_nil passed, recordsFrom_passed ends]
      rfl
  | @last front passed raw cells ends begins written =>
      rw [recordsFrom_passed ends]
      exact recordsFrom_lastRecord hdelimiter begins written _ _
  | @more front passed raw rest ending cells located ends begins written others ih =>
      have hfeeds : front.count '\n' + passed.count '\n' + raw.count '\n' +
          [ending].count '\n' = (front ++ passed ++ raw ++ [ending]).count '\n' := by
        rw [List.count_append, List.count_append, List.count_append]
      rw [recordsFrom_passed ends, List.map_cons, ← ih, ← hfeeds]
      exact recordsFrom_record hdelimiter begins written _ _

/-! ## Counting from another line -/

/-- A record that stands further on. -/
def Record.shift (lines : Nat) (record : Record) : Record :=
  { record with line := record.line + lines }

def Draft.shift (lines : Nat) (draft : Draft) : Draft :=
  { draft with line := draft.line + lines, lineFeeds := draft.lineFeeds + lines }

theorem Draft.count_shift (lines : Nat) (draft : Draft) (c : Char) :
    (draft.shift lines).count c = (draft.count c).shift lines := by
  unfold count shift
  split
  · rw [Nat.add_right_comm]
  · rfl

theorem Draft.start_shift (lines lineFeeds : Nat) :
    (Draft.start lineFeeds).shift lines = .start (lineFeeds + lines) := by
  rw [start, shift, start, Nat.add_right_comm]

/-- A table that stands further on in a text is read in the same way. -/
theorem recordsFrom_shift (delimiter : Char) (lines : Nat) (place : Place) (draft : Draft)
    (text : List Char) :
    recordsFrom delimiter place (draft.shift lines) text =
      (recordsFrom delimiter place draft text).map (Record.shift lines) := by
  induction text generalizing place draft with
  | nil =>
      rw [recordsFrom, recordsFrom]
      split <;> rfl
  | cons c rest ih =>
      rw [recordsFrom, recordsFrom, Draft.count_shift]
      cases (readPlace delimiter place c).2 with
      | skip => exact ih _ _
      | add => exact ih _ { draft.count c with field := c :: draft.field }
      | endField => exact ih _ (draft.count c).endField
      | endRecord =>
          have hrest := ih (readPlace delimiter place c).1 (.start (draft.count c).lineFeeds)
          rw [Draft.start_shift] at hrest
          exact congrArg _ hrest

theorem records_of_stands (hdelimiter : IsDelimiter delimiter) {front : List Char}
    {located : List Located} (h : Stands delimiter front text located) :
    (records delimiter text).map (Record.shift (front.count '\n')) =
      located.map Located.record := by
  have hshift := recordsFrom_shift delimiter (front.count '\n') .recordStart (.start 0) text
  rw [Draft.start_shift, Nat.zero_add, recordsFrom_of_stands hdelimiter h] at hshift
  exact hshift.symm

/-! ## Every text is a table -/

/-- The longest text at the beginning that ends neither cell nor record. -/
theorem exists_plain (delimiter : Char) (text : List Char) :
    ∃ bare rest, text = bare ++ rest ∧ (∀ c ∈ bare, c ≠ delimiter ∧ isLineEnd c = false) ∧
      EndsCell delimiter rest := by
  induction text with
  | nil => exact ⟨[], [], rfl, List.forall_mem_nil _, endsRecord_nil.endsCell⟩
  | cons c text ih =>
      by_cases hc : c = delimiter ∨ isLineEnd c = true
      · refine ⟨[], c :: text, rfl, List.forall_mem_nil _, fun d hd => ?_⟩
        obtain rfl := Option.some.inj hd
        exact hc
      · obtain ⟨bare, rest, rfl, hbare, hrest⟩ := ih
        refine ⟨c :: bare, rest, rfl, fun d hd => ?_, hrest⟩
        rcases List.mem_cons.mp hd with rfl | hd
        · simpa using hc
        · exact hbare d hd

/-- Outside of quotes a cell is read up to what ends it. -/
theorem exists_isBare (delimiter : Char) (h : '"' ∉ text.head?) :
    ∃ bare rest, text = bare ++ rest ∧ IsBare delimiter bare ∧ EndsCell delimiter rest := by
  obtain ⟨bare, rest, rfl, hbare, hrest⟩ := exists_plain delimiter text
  refine ⟨bare, rest, rfl, ⟨hbare, fun hquote => h ?_⟩, hrest⟩
  rw [List.head?_append, hquote]
  rfl

/-- Behind a quote, everything up to the closing one, if there is one. -/
theorem exists_doubleQuotes (text : List Char) :
    (∃ inner tail, text = doubleQuotes inner ++ '"' :: tail ∧ '"' ∉ tail.head?) ∨
      ∃ inner, text = doubleQuotes inner := by
  match text with
  | [] => exact .inr ⟨[], rfl⟩
  | c :: text =>
      by_cases hquote : c = '"'
      · subst hquote
        match text with
        | [] => exact .inl ⟨[], [], rfl, Option.not_mem_none _⟩
        | d :: rest =>
            by_cases hdouble : d = '"'
            · subst hdouble
              rcases exists_doubleQuotes rest with ⟨inner, tail, rfl, htail⟩ | ⟨inner, rfl⟩
              · exact .inl ⟨'"' :: inner, tail, rfl, htail⟩
              · exact .inr ⟨'"' :: inner, rfl⟩
            · exact .inl ⟨[], d :: rest, rfl, fun hd => hdouble (Option.some.inj hd)⟩
      · have hone : ∀ inner, c :: doubleQuotes inner = doubleQuotes (c :: inner) := fun inner => by
          simp [doubleQuotes, hquote]
        rcases exists_doubleQuotes text with ⟨inner, tail, rfl, htail⟩ | ⟨inner, rfl⟩
        · exact .inl ⟨c :: inner, tail, by rw [← hone, List.cons_append], htail⟩
        · exact .inr ⟨c :: inner, hone inner⟩
termination_by text.length

/-- Every text begins with a cell. -/
theorem exists_cell (delimiter : Char) (text : List Char) :
    ∃ (cell : Cell) (rest : List Char), text = cell.written ++ rest ∧ cell.Fits delimiter rest := by
  by_cases hquote : '"' ∈ text.head?
  · obtain ⟨behind, rfl⟩ : ∃ behind, text = '"' :: behind :=
      List.head?_eq_some_iff.mp hquote
    rcases exists_doubleQuotes behind with ⟨inner, tail, rfl, htail⟩ | ⟨inner, rfl⟩
    · obtain ⟨bare, rest, rfl, hbare, hrest⟩ := exists_isBare delimiter htail
      exact ⟨.quoted inner bare, rest, by simp [Cell.written, writeQuoted], hbare, hrest⟩
    · exact ⟨.unclosed inner, [], (List.append_nil _).symm, rfl⟩
  · obtain ⟨bare, rest, rfl, hbare, hrest⟩ := exists_isBare delimiter hquote
    exact ⟨.bare bare, rest, rfl, hbare, hrest⟩

/-- Every text begins with the cells of a record. -/
theorem exists_written (delimiter : Char) (text : List Char) :
    ∃ cells raw rest, text = raw ++ rest ∧ Written delimiter rest cells raw := by
  obtain ⟨cell, behind, rfl, hfits⟩ := exists_cell delimiter text
  by_cases hends : EndsRecord behind
  · exact ⟨[cell], cell.written, behind, rfl, .last hfits hends⟩
  · -- What does not end the record ends only the cell, so it is a delimiter.
    obtain ⟨others, rfl⟩ : ∃ others, behind = delimiter :: others := by
      cases behind with
      | nil => exact absurd endsRecord_nil hends
      | cons c others =>
          rcases hfits.endsCell c rfl with rfl | hend
          · exact ⟨others, rfl⟩
          · exact absurd (endsRecord_cons hend others) hends
    obtain ⟨cells, raw, rest, rfl, hwritten⟩ := exists_written delimiter others
    exact ⟨cell :: cells, cell.written ++ delimiter :: raw, rest, by simp,
      .more (hfits.congr rfl) hwritten⟩
termination_by text.length
decreasing_by
  subst_vars
  simp only [List.length_append, List.length_cons]
  omega

/-- In front of a record the ends of lines are passed over. -/
theorem exists_passed (text : List Char) :
    ∃ passed rest, text = passed ++ rest ∧ (∀ c ∈ passed, isLineEnd c = true) ∧
      (rest = [] ∨ ¬ EndsRecord rest) := by
  induction text with
  | nil => exact ⟨[], [], rfl, List.forall_mem_nil _, .inl rfl⟩
  | cons c text ih =>
      by_cases hend : isLineEnd c = true
      · obtain ⟨passed, rest, rfl, hpassed, hrest⟩ := ih
        exact ⟨c :: passed, rest, rfl, List.forall_mem_cons.mpr ⟨hend, hpassed⟩, hrest⟩
      · exact ⟨[], c :: text, rfl, List.forall_mem_nil _, .inr fun h => hend (h c rfl)⟩

/-- **Every text is a table.** -/
theorem exists_stands (delimiter : Char) (front text : List Char) :
    ∃ located, Stands delimiter front text located := by
  obtain ⟨passed, record, rfl, hpassed, rfl | hbegins⟩ := exists_passed text
  · exact ⟨[], (List.append_nil passed).symm ▸ .none hpassed⟩
  · obtain ⟨cells, raw, rest, rfl, hwritten⟩ := exists_written delimiter record
    -- Behind the cells the record ends, so it does not begin there.
    have hraw : ¬ EndsRecord raw := by
      cases raw with
      | nil => exact absurd hwritten.endsRecord hbegins
      | cons c raw => exact hbegins
    cases rest with
    | nil =>
        rw [List.append_nil]
        exact ⟨[⟨front, passed, cells⟩], .last hpassed hraw hwritten⟩
    | cons ending rest =>
        obtain ⟨located, hothers⟩ := exists_stands delimiter (front ++ passed ++ raw ++ [ending]) rest
        exact ⟨⟨front, passed, cells⟩ :: located, .more hpassed hraw hwritten hothers⟩
termination_by text.length
decreasing_by
  subst_vars
  simp only [List.length_append, List.length_cons]
  omega

end PlcTags.Table
