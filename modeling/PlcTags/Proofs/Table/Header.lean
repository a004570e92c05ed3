import Mathlib.Data.List.TakeWhile
import PlcTags.Proofs.Table.Record
import PlcTags.Proofs.Text.Trim
import PlcTags.Table.Column
import PlcTags.Table.Preamble

/-!
# The header of a written table

A table is written with the lines of its layout in front of the header.  Reading
skips exactly these (`headerFrom_lines`), takes the delimiter from the header
line, and recognises the columns; the cells of a record are then found whatever
their order (`cell?_map`).  That the layouts of the vendors satisfy all this is
a matter of evaluation (`isReadable_layoutOf`).
-/

namespace PlcTags.Table

/-! ## Lines in front of the header -/

theorem cutLine_append {line : List Char} (hline : '\n' ∉ line) (rest : List Char) :
    cutLine (line ++ '\n' :: rest) = (line, rest) := by
  have hpos : ∀ c ∈ line, (c != '\n') = true := by
    intro c hc
    have hne : c ≠ '\n' := fun heq => hline (heq ▸ hc)
    simp [hne]
  rw [cutLine, List.takeWhile_append_of_pos hpos, List.dropWhile_append_of_pos hpos]
  simp

/-- A line of which the first line feed is its end. -/
structure IsLine (line : List Char) : Prop where
  ne_nil : line ≠ []
  no_lineFeed : '\n' ∉ line

instance (line : List Char) : Decidable (IsLine line) :=
  decidable_of_iff (line ≠ [] ∧ '\n' ∉ line) ⟨fun h => ⟨h.1, h.2⟩, fun h => ⟨h.1, h.2⟩⟩

theorem headerFrom_step {line : List Char} (hline : IsLine line) (number : Nat)
    (rest : List Char) :
    headerFrom number (line ++ '\n' :: rest) =
      if isPreamble line then headerFrom (number + 1) rest
      else some (number, line ++ '\n' :: rest) := by
  have hcut := cutLine_append hline.no_lineFeed rest
  cases line with
  | nil => exact absurd rfl hline.ne_nil
  | cons c line =>
      rw [List.cons_append] at hcut ⊢
      rw [headerFrom, hcut]

/-- The lines in front of the header are counted and skipped. -/
theorem headerFrom_lines {lines : List (List Char)} {header : List Char}
    (hlines : ∀ line ∈ lines, IsLine line ∧ isPreamble line = true) (hheader : IsLine header)
    (hfirst : isPreamble header = false) (number : Nat) (rest : List Char) :
    headerFrom number (lines.flatMap (· ++ ['\n']) ++ (header ++ '\n' :: rest)) =
      some (number + lines.length, header ++ '\n' :: rest) := by
  induction lines generalizing number with
  | nil =>
      rw [List.flatMap_nil, List.nil_append, headerFrom_step hheader, hfirst]
      rfl
  | cons line lines ih =>
      obtain ⟨hline, hskip⟩ := hlines line List.mem_cons_self
      have happend : (line :: lines).flatMap (· ++ ['\n']) ++ (header ++ '\n' :: rest) =
          line ++ '\n' :: (lines.flatMap (· ++ ['\n']) ++ (header ++ '\n' :: rest)) := by
        simp
      rw [happend, headerFrom_step hline, if_pos hskip,
        ih (fun other hother => hlines other (List.mem_cons_of_mem _ hother)), List.length_cons,
        Nat.add_right_comm, Nat.add_assoc]

theorem cutLine_of_notMem {text : List Char} (h : '\n' ∉ text) : cutLine text = (text, []) := by
  have hpos : ∀ c ∈ text, (c != '\n') = true := fun c hc => by
    simpa using fun heq : c = '\n' => h (heq ▸ hc)
  have hcut : cutLine (text ++ []) = (text, []) := by
    rw [cutLine, List.takeWhile_append_of_pos hpos, List.dropWhile_append_of_pos hpos]
    simp
  rwa [List.append_nil] at hcut

/-- A text is its first line, a line feed and what follows it, unless it has no line feed. -/
theorem eq_cutLine_or (text : List Char) :
    text = (cutLine text).1 ++ '\n' :: (cutLine text).2 ∧ '\n' ∉ (cutLine text).1 ∨
      '\n' ∉ text := by
  by_cases h : '\n' ∈ text
  · obtain ⟨line, rest, rfl, hline⟩ := List.eq_append_cons_of_mem h
    exact .inl ⟨by rw [cutLine_append hline], by rwa [cutLine_append hline]⟩
  · exact .inr h

/-- The header stands on the line that is counted for it. -/
theorem headerFrom_eq_some {number line : Nat} {text body : List Char}
    (h : headerFrom number text = some (line, body)) :
    ∃ front, text = front ++ body ∧ line = number + front.count '\n' := by
  induction number, text using headerFrom.induct with
  | case1 number =>
      rw [headerFrom] at h
      cases h
  | case2 number c text hskip ih =>
      rw [headerFrom, if_pos hskip] at h
      rcases eq_cutLine_or (c :: text) with ⟨htext, hline⟩ | hnone
      · obtain ⟨front, hfront, hnumber⟩ := ih h
        refine ⟨(cutLine (c :: text)).1 ++ '\n' :: front, ?_, ?_⟩
        · rw [List.append_assoc, List.cons_append, ← hfront]
          exact htext
        · rw [hnumber, List.count_append, List.count_eq_zero.mpr hline, List.count_cons_self]
          omega
      · -- Behind the last line there is no header.
        rw [cutLine_of_notMem hnone, headerFrom] at h
        cases h
  | case3 number c text hheader =>
      rw [headerFrom, if_neg hheader] at h
      obtain ⟨rfl, rfl⟩ := Prod.mk.inj (Option.some.inj h)
      exact ⟨[], rfl, rfl⟩

/-! ## Numbers -/

/-- The letters of exponents and of the words that count as numbers. -/
def numberLetters : List Char :=
  ['a', 'e', 'f', 'i', 'n', 't', 'y']

/-- A character that may stand in a number. -/
def isNumberChar (c : Char) : Bool :=
  c.isDigit || isSign c || c == '.' || numberLetters.contains c.toLower

section Numbers

variable {text : List Char} {c : Char}

theorem isNumberChar_of_isDigit (h : c.isDigit = true) : isNumberChar c = true := by
  simp [isNumberChar, h]

theorem isNumberChar_of_isSign (h : isSign c = true) : isNumberChar c = true := by
  simp [isNumberChar, h]

theorem isNumberChar_of_isExponent (h : isExponent text = true) (hc : c ∈ text) :
    isNumberChar c = true := by
  cases text with
  | nil => cases hc
  | cons letter rest =>
      have hdigits : ∀ digits : List Char, digits.all Char.isDigit = true → c ∈ digits →
          isNumberChar c = true := fun digits hall hmem =>
        isNumberChar_of_isDigit (List.all_eq_true.mp hall c hmem)
      unfold isExponent at h
      simp only [Bool.and_eq_true, Bool.or_eq_true, beq_iff_eq] at h
      obtain ⟨⟨hletter, -⟩, hrest⟩ := h
      rcases List.mem_cons.mp hc with rfl | hc
      · rcases hletter with rfl | rfl <;> decide
      · cases rest with
        | nil => cases hc
        | cons sign digits =>
            dsimp only at hrest
            split at hrest
            · rcases List.mem_cons.mp hc with rfl | hc
              · exact isNumberChar_of_isSign ‹_›
              · exact hdigits digits hrest hc
            · exact hdigits (sign :: digits) hrest hc

theorem isNumberChar_of_isDecimalNumber (h : isDecimalNumber text = true) (hc : c ∈ text) :
    isNumberChar c = true := by
  have hdigits : ∀ text : List Char, c ∈ text.takeWhile Char.isDigit → isNumberChar c = true :=
    fun text hmem => isNumberChar_of_isDigit (List.mem_takeWhile_imp hmem)
  rw [← List.takeWhile_append_dropWhile (p := Char.isDigit) (l := text)] at hc
  rcases List.mem_append.mp hc with hwhole | hbehind
  · exact hdigits text hwhole
  · rw [isDecimalNumber] at h
    generalize text.dropWhile Char.isDigit = behind at h hbehind
    dsimp only at h
    split at h
    · rename_i digits
      obtain ⟨-, hexponent⟩ := Bool.and_eq_true_iff.mp h
      rcases List.mem_cons.mp hbehind with rfl | hbehind
      · decide
      · rw [← List.takeWhile_append_dropWhile (p := Char.isDigit) (l := digits)] at hbehind
        rcases List.mem_append.mp hbehind with hfraction | hrest
        · exact hdigits digits hfraction
        · exact isNumberChar_of_isExponent hexponent hrest
    · obtain ⟨-, hexponent⟩ := Bool.and_eq_true_iff.mp h
      exact isNumberChar_of_isExponent hexponent hbehind

theorem isNumberChar_of_isNumber (h : isNumber text = true) (hc : c ∈ text) :
    isNumberChar c = true := by
  have hunsigned : ∀ unsigned : List Char, (numberWords.contains (unsigned.map Char.toLower) ||
      isDecimalNumber unsigned) = true → c ∈ unsigned → isNumberChar c = true := by
    intro unsigned hnumber hmem
    rcases Bool.or_eq_true _ _ ▸ hnumber with hword | hdecimal
    · have hlower : c.toLower ∈ unsigned.map Char.toLower := List.mem_map_of_mem hmem
      have hletters : (numberWords.all fun word =>
          word.all fun d => numberLetters.contains d) = true := by decide
      have hall := List.all_eq_true.mp hletters _ (List.contains_iff_mem.mp hword)
      have hletter : numberLetters.contains c.toLower = true := List.all_eq_true.mp hall _ hlower
      rw [isNumberChar, hletter, Bool.or_true]
    · exact isNumberChar_of_isDecimalNumber hdecimal hmem
  cases text with
  | nil => cases hc
  | cons sign rest =>
      unfold isNumber at h
      dsimp only at h
      split at h
      · rcases List.mem_cons.mp hc with rfl | hc
        · exact isNumberChar_of_isSign ‹_›
        · exact hunsigned rest h hc
      · exact hunsigned (sign :: rest) h hc

/-- A line with a character that no number has is no version. -/
theorem isVersion_eq_false (hc : c ∈ text) (hstray : isNumberChar c = false) (hquote : c ≠ '"') :
    isVersion text = false := by
  have hkept : ∀ text : List Char, c ∈ text → c ∈ dropQuotes text := fun text hmem =>
    Text.mem_dropWhile_of_neg hmem (by simpa using hquote)
  refine Bool.eq_false_iff.mpr fun hnumber => ?_
  have hmem := List.mem_reverse.mpr (hkept _ (List.mem_reverse.mpr (hkept text hc)))
  exact absurd (isNumberChar_of_isNumber hnumber hmem) (by simp [hstray])

end Numbers

/-! ## The delimiter -/

/-- The delimiters that tables are read with. -/
def delimiters : List Char :=
  [',', ';', '\t']

theorem isDelimiter_of_mem {delimiter : Char} (h : delimiter ∈ delimiters) :
    IsDelimiter delimiter := by
  simp only [delimiters, List.mem_cons, List.not_mem_nil, or_false] at h
  rcases h with rfl | rfl | rfl <;> decide

theorem delimiterOf_mem (line : List Char) : delimiterOf line ∈ delimiters := by
  unfold delimiterOf
  dsimp only
  split
  · decide
  · split <;> decide

theorem isDelimiter_delimiterOf (line : List Char) : IsDelimiter (delimiterOf line) :=
  isDelimiter_of_mem (delimiterOf_mem line)

theorem outsideQuotes_eq_self {line : List Char} (h : '"' ∉ line) :
    outsideQuotes false line = line := by
  induction line with
  | nil => rfl
  | cons c rest ih =>
      have hc : c ≠ '"' := fun heq => h (heq ▸ List.mem_cons_self)
      have hrest : '"' ∉ rest := fun hmem => h (List.mem_cons_of_mem c hmem)
      rw [outsideQuotes, if_neg hc, if_neg Bool.false_ne_true, ih hrest]

/-- The delimiter of a line without quotes is the one that stands in it. -/
theorem delimiterOf_eq {line : List Char} {delimiter : Char} (h : delimiter ∈ line)
    (hquote : '"' ∉ line) (hmem : delimiter ∈ delimiters)
    (hothers : ∀ other ∈ delimiters, other ∈ line → other = delimiter) :
    delimiterOf line = delimiter := by
  have hcount : 0 < line.count delimiter := List.count_pos_iff.mpr h
  have hnone : ∀ other ∈ delimiters, other ≠ delimiter → line.count other = 0 :=
    fun other hother hne => List.count_eq_zero.mpr fun hin => hne (hothers other hother hin)
  unfold delimiterOf
  rw [outsideQuotes_eq_self hquote]
  dsimp only
  simp only [delimiters, List.mem_cons, List.not_mem_nil, or_false] at hmem
  rcases hmem with rfl | rfl | rfl
  · rw [hnone ';' (by decide) (by decide), hnone '\t' (by decide) (by decide)]
    simp
  · rw [hnone ',' (by decide) (by decide), hnone '\t' (by decide) (by decide)]
    simp [hcount]
  · rw [hnone ',' (by decide) (by decide), hnone ';' (by decide) (by decide)]
    simp [hcount]

/-! ## Layouts -/

/-- The line of a record, without its line feed. -/
def recordLine (delimiter : Char) (fields : List (List Char)) : List Char :=
  (writeRecord delimiter fields).dropLast

theorem recordLine_append (delimiter : Char) (fields : List (List Char)) :
    recordLine delimiter fields ++ ['\n'] = writeRecord delimiter fields := by
  unfold recordLine writeRecord
  rw [List.dropLast_concat]

/-- A text that begins with a letter, and so with neither a mark nor a bracket. -/
def BeginsWithLetter (text : List Char) : Prop :=
  text.head?.any Char.isAlpha = true

instance (text : List Char) : Decidable (BeginsWithLetter text) :=
  inferInstanceAs (Decidable (_ = _))

theorem BeginsWithLetter.exists_cons {text : List Char} (h : BeginsWithLetter text) :
    ∃ c rest, text = c :: rest ∧ c.isAlpha = true := by
  cases text with
  | nil => cases h
  | cons c rest => exact ⟨c, rest, rfl, by simpa [BeginsWithLetter] using h⟩

namespace Layout

/-- The fields of the header. -/
def headers (layout : Layout) : List (List Char) :=
  layout.columns.map fun column => column.2.toList

/-- The lines in front of the header. -/
def lines (layout : Layout) : List (List Char) :=
  layout.preamble.map fun fields => recordLine layout.delimiter (fields.map String.toList)

/-- The kinds of the columns, in order. -/
def kinds (layout : Layout) : List Column :=
  layout.columns.map Prod.fst

/-- Everything in front of the records, but for the line feed of the header. -/
def front (layout : Layout) : List Char :=
  layout.lines.flatMap (· ++ ['\n']) ++ recordLine layout.delimiter layout.headers

/-- What reading needs to know about a layout. -/
structure IsReadable (layout : Layout) : Prop where
  delimiter : IsDelimiter layout.delimiter
  lines : ∀ line ∈ layout.lines, IsLine line ∧ isPreamble line = true
  header : IsLine (recordLine layout.delimiter layout.headers)
  not_preamble : isPreamble (recordLine layout.delimiter layout.headers) = false
  delimiterOf : delimiterOf (recordLine layout.delimiter layout.headers) = layout.delimiter
  columnsOf : columnsOf (layout.headers.map readField) = layout.kinds.map some
  front_letter : BeginsWithLetter layout.front
  header_letter : BeginsWithLetter (recordLine layout.delimiter layout.headers)

end Layout

/-- The layouts of all vendors are readable. -/
theorem isReadable_layoutOf (vendor : Vendor) : (layoutOf vendor).IsReadable := by
  cases vendor
  · constructor <;> decide +kernel
  · constructor <;> decide +kernel
  · constructor <;> decide +kernel

/-! ## Cells -/

/-- The cell of a kind stands in the first column of that kind. -/
theorem cell?_map_map {α : Type} (items : List α) (kind : α → Option Column)
    (content : α → String) (column : Column) :
    cell? (items.map kind) (items.map content) column =
      (items.find? fun item => kind item == some column).map content := by
  induction items with
  | nil => rfl
  | cons item items ih =>
      rw [cell?, List.map_cons, List.map_cons, List.findIdx?_cons, List.find?_cons]
      -- Behind the first column, the indices are those of the rest, one further on.
      cases hkind : kind item == some column with
      | true => rfl
      | false =>
          rw [if_neg Bool.false_ne_true, Option.map_map]
          exact ih

/-- The cell of a column is found if the table has the column. -/
theorem cell?_map (kinds : List Column) (content : Column → String) (column : Column) :
    cell? (kinds.map some) (kinds.map content) column =
      if column ∈ kinds then some (content column) else none := by
  rw [cell?_map_map]
  by_cases hmem : column ∈ kinds
  · have hfind : (kinds.find? fun kind => some kind == some column) = some column := by
      obtain ⟨kind, hkind⟩ : ∃ kind, (kinds.find? fun kind => some kind == some column) =
          some kind := by
        rw [← Option.isSome_iff_exists, List.find?_isSome]
        exact ⟨column, hmem, by simp⟩
      have heq : kind = column := by simpa using List.find?_some hkind
      rw [hkind, heq]
    rw [hfind, if_pos hmem]
    rfl
  · have hfind : (kinds.find? fun kind => some kind == some column) = none := by
      rw [List.find?_eq_none]
      intro kind hkind hsame
      have heq : kind = column := by simpa using hsame
      exact hmem (heq ▸ hkind)
    rw [hfind, if_neg hmem]
    rfl

end PlcTags.Table
