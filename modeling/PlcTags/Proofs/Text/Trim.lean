import Mathlib.Data.List.TakeWhile
import PlcTags.Text.Trim

/-!
# Trimmed texts

A text is trimmed if trimming leaves it as it is.  That is the case exactly when
it is empty or has no blank at either end; the lemmas here go from one form to
the other, because containers put such texts between characters of their own and
put characters of their own around texts (`trim_of_ends`).

Words are what stands between blanks, and blanks around a word do not count
(`squeeze_of_word`).
-/

namespace PlcTags.Text

/-! ## Ends that are not blank -/

theorem trimEnd_append_of_not_blank (text : List Char) {c : Char} (hc : isBlank c = false) :
    trimEnd (text ++ [c]) = text ++ [c] := by
  induction text with
  | nil => simp [trimEnd, allBlank, hc]
  | cons d rest ih =>
      have hall : allBlank (d :: (rest ++ [c])) = false := by simp [allBlank, hc]
      rw [List.cons_append, trimEnd, hall, ih]
      rfl

/-- A text without blanks at its ends is trimmed. -/
theorem trim_of_head_getLast {text : List Char} (hhead : ∀ c ∈ text.head?, isBlank c = false)
    (hlast : ∀ c ∈ text.getLast?, isBlank c = false) : trim text = text := by
  have hstart : trimStart text = text := by
    cases text with
    | nil => rfl
    | cons c rest => exact trimStart_of_not_blank rest (hhead c rfl)
  rcases List.eq_nil_or_concat text with rfl | ⟨front, last, rfl⟩
  · rfl
  · rw [List.concat_eq_append] at hstart hlast ⊢
    rw [trim, hstart]
    exact trimEnd_append_of_not_blank front (hlast last (by simp))

/-- A text between two characters that are no blanks is trimmed. -/
theorem trim_of_ends {c d : Char} (text : List Char) (hc : isBlank c = false)
    (hd : isBlank d = false) : trim (c :: (text ++ [d])) = c :: (text ++ [d]) := by
  refine trim_of_head_getLast ?_ ?_
  · rintro e ⟨⟩
    exact hc
  · rw [← List.cons_append, List.getLast?_concat]
    rintro e ⟨⟩
    exact hd

theorem trim_of_forall_not_blank {text : List Char} (h : ∀ c ∈ text, isBlank c = false) :
    trim text = text :=
  trim_of_head_getLast (fun c hc => h c (List.mem_of_head? hc))
    fun c hc => h c (List.mem_of_getLast? hc)

/-! ## Texts between others -/

/-- Blanks are skipped up to the first character that is none. -/
theorem trimStart_append_of_not_blank (text : List Char) {c : Char} (hc : isBlank c = false)
    (rest : List Char) : trimStart (text ++ c :: rest) = trimStart text ++ c :: rest := by
  induction text with
  | nil => exact trimStart_of_not_blank rest hc
  | cons d text ih =>
      by_cases hd : isBlank d = true
      · simpa [trimStart, List.dropWhile_cons, hd] using ih
      · rw [List.cons_append, trimStart_of_not_blank _ (by simpa using hd),
          trimStart_of_not_blank _ (by simpa using hd), List.cons_append]

theorem trim_trimStart (text : List Char) : trim (trimStart text) = trim text := by
  rcases trimStart_eq_nil_or text with hnil | ⟨c, rest, hcons, hc⟩
  · rw [trim, trim, hnil, trimStart_nil]
  · rw [trim, trim, hcons, trimStart_of_not_blank rest hc]

theorem sublist_trimEnd (text : List Char) : (trimEnd text).Sublist text := by
  induction text with
  | nil => exact .slnil
  | cons c rest ih =>
      rw [trimEnd]
      split
      · exact List.nil_sublist _
      · exact ih.cons_cons c

/-- Trimming only takes characters away. -/
theorem sublist_trim (text : List Char) : (trim text).Sublist text :=
  (sublist_trimEnd _).trans (List.dropWhile_sublist _)

/-! ## From a trimmed text to its ends -/

/-- What is dropped at the beginning of a list is not what is looked for. -/
theorem filter_dropWhile {α : Type} {drops keeps : α → Bool}
    (h : ∀ item, drops item = true → keeps item = false) (items : List α) :
    (items.dropWhile drops).filter keeps = items.filter keeps := by
  induction items with
  | nil => rfl
  | cons item rest ih =>
      by_cases hdrops : drops item = true
      · rw [List.dropWhile_cons_of_pos hdrops, ih, List.filter_cons_of_neg (by simp [h item hdrops])]
      · rw [List.dropWhile_cons_of_neg hdrops]

theorem mem_dropWhile_of_neg {α : Type} {drops : α → Bool} {item : α} {items : List α}
    (hitem : item ∈ items) (h : drops item = false) : item ∈ items.dropWhile drops := by
  induction items with
  | nil => cases hitem
  | cons first rest ih =>
      by_cases hdrops : drops first = true
      · rw [List.dropWhile_cons_of_pos hdrops]
        rcases List.mem_cons.mp hitem with rfl | hrest
        · exact absurd (hdrops.symm.trans h) (by decide)
        · exact ih hrest
      · rw [List.dropWhile_cons_of_neg hdrops]
        exact hitem

theorem filter_trimEnd {keeps : Char → Bool} (h : ∀ c, isBlank c = true → keeps c = false)
    (text : List Char) : (trimEnd text).filter keeps = text.filter keeps := by
  induction text with
  | nil => rfl
  | cons c rest ih =>
      rw [trimEnd]
      by_cases hblank : allBlank (c :: rest) = true
      · rw [if_pos hblank, List.filter_nil, eq_comm, List.filter_eq_nil_iff]
        intro d hd
        simp [h d (List.all_eq_true.mp hblank d hd)]
      · rw [if_neg hblank, List.filter_cons, List.filter_cons, ih]

/-- Trimming takes away blanks only. -/
theorem filter_trim {keeps : Char → Bool} (h : ∀ c, isBlank c = true → keeps c = false)
    (text : List Char) : (trim text).filter keeps = text.filter keeps := by
  rw [trim, filter_trimEnd h, trimStart, filter_dropWhile h]

theorem mem_trim_of_not_blank {text : List Char} {c : Char} (hc : c ∈ text)
    (hblank : isBlank c = false) : c ∈ trim text := by
  have hmem : c ∈ text.filter fun c => !isBlank c := List.mem_filter.mpr ⟨hc, by simp [hblank]⟩
  rw [← filter_trim (fun c h => by simp [h])] at hmem
  exact (List.mem_filter.mp hmem).1

/-- A trimmed text that is not empty begins with a character that is no blank. -/
theorem head_of_trim_eq {c : Char} {rest : List Char} (h : trim (c :: rest) = c :: rest) :
    isBlank c = false := by
  rcases trimStart_eq_nil_or (c :: rest) with hnil | ⟨d, tail, hcons, hd⟩
  · simp [trim, hnil] at h
  · rw [trim, hcons, trimEnd_cons_of_not_blank _ hd] at h
    rw [← (List.cons.inj h).1]
    exact hd

/-- A character in front of a trimmed text leaves it trimmed. -/
theorem trim_cons_of_trimmed {c : Char} {text : List Char} (hc : isBlank c = false)
    (h : trim text = text) : trim (c :: text) = c :: text := by
  rw [trim, trimStart_of_not_blank _ hc, trimEnd_cons_of_not_blank _ hc]
  cases text with
  | nil => rfl
  | cons d rest =>
      rw [trim, trimStart_of_not_blank _ (head_of_trim_eq h)] at h
      rw [h]

/-- Blanks behind a text do not count. -/
theorem trim_append_blank (text : List Char) {gap : List Char}
    (hgap : ∀ c ∈ gap, isBlank c = true) : trim (text ++ gap) = trim text := by
  have hend : ∀ text, trimEnd (text ++ gap) = trimEnd text := by
    intro text
    induction text with
    | nil => exact trimEnd_of_allBlank (List.all_eq_true.mpr hgap)
    | cons c rest ih =>
        have hall : allBlank (c :: (rest ++ gap)) = allBlank (c :: rest) := by
          simp [allBlank, List.all_eq_true.mpr hgap]
        rw [List.cons_append, trimEnd, trimEnd, hall, ih]
  have hblank : ∀ text, (∀ c ∈ text, isBlank c = true) → trimStart text = [] :=
    fun _ => List.dropWhile_eq_nil_iff.mpr
  rcases trimStart_eq_nil_or text with hnil | ⟨c, rest, hcons, hc⟩
  · have htext : ∀ c ∈ text, isBlank c = true := List.dropWhile_eq_nil_iff.mp hnil
    rw [trim, trim, hnil, hblank _ (List.forall_mem_append.mpr ⟨htext, hgap⟩)]
  · have hstart : trimStart (text ++ gap) = trimStart text ++ gap := by
      rw [trimStart, List.dropWhile_append]
      change trimStart text = c :: rest at hcons
      change (if (trimStart text).isEmpty = true then trimStart gap else trimStart text ++ gap) = _
      rw [hcons]
      rfl
    rw [trim, trim, hstart, hend]

/-- Blanks in front of a text do not count. -/
theorem trim_blank_append {gap : List Char} (text : List Char)
    (hgap : ∀ c ∈ gap, isBlank c = true) : trim (gap ++ text) = trim text := by
  rw [trim, trim, trimStart, trimStart, List.dropWhile_append_of_pos hgap]

/-! ## Words -/

/-- A blank stands between words. -/
theorem words_append_blank (text : List Char) {c : Char} (hc : isBlank c = true)
    (rest : List Char) : words (text ++ c :: rest) = words text ++ words rest := by
  rw [words, words, words, List.splitOnP_append_cons text rest hc, List.filter_append]

theorem words_of_not_blank {text : List Char} (h : ∀ c ∈ text, isBlank c = false)
    (hne : text ≠ []) : words text = [text] := by
  rw [words, List.splitOnP_eq_singleton h]
  simp [hne]

theorem words_append_gap (text : List Char) {gap : List Char}
    (hgap : ∀ c ∈ gap, isBlank c = true) : words (text ++ gap) = words text := by
  induction gap generalizing text with
  | nil => rw [List.append_nil]
  | cons c gap ih =>
      obtain ⟨hc, hgap⟩ := List.forall_mem_cons.mp hgap
      have hnil : words ([] ++ gap) = words [] := ih [] hgap
      rw [words_append_blank text hc, ← List.nil_append gap, hnil]
      exact List.append_nil _

theorem words_gap_append {gap : List Char} (text : List Char)
    (hgap : ∀ c ∈ gap, isBlank c = true) : words (gap ++ text) = words text := by
  induction gap with
  | nil => rfl
  | cons c gap ih =>
      obtain ⟨hc, hgap⟩ := List.forall_mem_cons.mp hgap
      exact (words_append_blank [] hc (gap ++ text)).trans (ih hgap)

/-- A single word between blanks. -/
theorem squeeze_of_word {front word back : List Char} (hfront : ∀ c ∈ front, isBlank c = true)
    (hback : ∀ c ∈ back, isBlank c = true) (hword : ∀ c ∈ word, isBlank c = false)
    (hne : word ≠ []) : squeeze (front ++ (word ++ back)) = word := by
  rw [squeeze, words_gap_append _ hfront, words_append_gap _ hback, words_of_not_blank hword hne]
  exact List.intercalate_singleton

/-! ## Strings -/

/-- A string without blanks at its ends. -/
def Trimmed (text : String) : Prop :=
  trimmed text = text

instance (text : String) : Decidable (Trimmed text) :=
  inferInstanceAs (Decidable (_ = _))

theorem Trimmed.toList {text : String} (h : Trimmed text) : trim text.toList = text.toList := by
  have := congrArg String.toList h
  simpa [trimmed] using this

theorem trimmed_of_toList {text : String} (h : trim text.toList = text.toList) :
    Trimmed text := by
  rw [Trimmed, trimmed, h, String.ofList_toList]

/-! ## Blank texts -/

/-- Trimming neither makes a text blank nor keeps one from being blank. -/
theorem allBlank_trim (text : List Char) : allBlank (trim text) = allBlank text := by
  have hstart : allBlank (trimStart text) = true ↔ allBlank text = true := by
    induction text with
    | nil => rfl
    | cons c rest ih =>
        by_cases hc : isBlank c = true
        · simpa [trimStart, allBlank, List.dropWhile_cons, hc] using ih
        · rw [trimStart_of_not_blank rest (by simpa using hc)]
  rw [Bool.eq_iff_iff, trim, allBlank_trimEnd_iff, hstart]

/-- Trimming leaves nothing of a blank text, and something of any other. -/
theorem isEmpty_trim (text : List Char) : (trim text).isEmpty = allBlank text := by
  cases hblank : allBlank text with
  | true =>
      have htrim := trim_blank_append [] (List.all_eq_true.mp hblank)
      rw [List.append_nil] at htrim
      rw [htrim]
      rfl
  | false =>
      refine List.isEmpty_eq_false_iff.mpr fun hnil => ?_
      rw [← allBlank_trim, hnil] at hblank
      cases hblank

theorem isAllBlank_of_empty {text : String} (h : text = "") : isAllBlank text = true := by
  rw [h]
  rfl

theorem isAllBlank_trimmed (text : String) : isAllBlank (trimmed text) = isAllBlank text := by
  simp only [isAllBlank, trimmed, String.toList_ofList, allBlank_trim]

end PlcTags.Text
