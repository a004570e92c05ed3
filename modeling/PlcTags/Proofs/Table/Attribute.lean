import PlcTags.Proofs.Text.Trim
import PlcTags.Table.Attribute

/-!
# Written attributes are read back

A value is written bare or between apostrophes.  In both forms it is cut out up
to the comma or parenthesis behind it, and means what was written
(`cutValue_writeValue`), but that a bare value loses the blanks at its ends
(`meantValue`).  `attributesOf_attribute` is the same for an attribute that stands
in front of something else.

Between apostrophes a value may hold anything, also apostrophes at its end; the
cutter then goes on as far as it can, and only the character behind the value,
which is no apostrophe, makes it stop.
-/

namespace PlcTags.Table

open Text

/-! ## Values -/

/-- A value is followed by a comma or a closing parenthesis. -/
def EndsValue (c : Char) : Prop :=
  c = ',' ∨ c = ')'

theorem EndsValue.not_blank {c : Char} (h : EndsValue c) : isBlank c = false := by
  rcases h with rfl | rfl <;> decide

theorem EndsValue.ne_apostrophe {c : Char} (h : EndsValue c) : c ≠ '\'' := by
  rcases h with rfl | rfl <;> decide

theorem cutApostrophes_doubleApostrophes {c : Char} (hc : EndsValue c) (value rest : List Char) :
    cutApostrophes (doubleApostrophes value ++ '\'' :: c :: rest) =
      some (doubleApostrophes value ++ ['\''], c :: rest) := by
  induction value with
  | nil =>
      -- The closing apostrophe is not followed by another one.
      have hne := hc.ne_apostrophe
      rw [doubleApostrophes, List.flatMap_nil, List.nil_append, cutApostrophes]
      · rfl
      · rintro tail htail
        exact hne (List.cons.inj htail).1
  | cons d value ih =>
      by_cases hd : d = '\''
      · subst hd
        have hdouble : doubleApostrophes ('\'' :: value) =
            '\'' :: '\'' :: doubleApostrophes value := rfl
        rw [hdouble, List.cons_append, List.cons_append, cutApostrophes, ih]
        rfl
      · have hsingle : doubleApostrophes (d :: value) = d :: doubleApostrophes value := by
          simp [doubleApostrophes, hd]
        rw [hsingle, List.cons_append, cutApostrophes, ih]
        · rfl
        · intro tail htail
          exact absurd htail hd
        · intro htail
          exact absurd htail hd

theorem plain_of_not_needsApostrophes {value : List Char} (h : needsApostrophes value = false)
    {c : Char} (hc : c ∈ value) : c ≠ ',' ∧ c ≠ ')' ∧ c ≠ '\'' := by
  have := List.any_eq_false.mp h c hc
  simp only [Bool.or_eq_true, beq_iff_eq, not_or] at this
  exact ⟨this.1.1, this.1.2, this.2⟩

theorem cutBare_append {value : List Char} (hvalue : ∀ c ∈ value, c ≠ ',' ∧ c ≠ ')') {c : Char}
    (hc : EndsValue c) (rest : List Char) : cutBare (value ++ c :: rest) = (value, c :: rest) := by
  have hpos : ∀ d ∈ value, (fun c : Char => c != ',' && c != ')') d = true := by
    intro d hd
    simp [hvalue d hd]
  have hstop : (c != ',' && c != ')') = false := by
    rcases hc with rfl | rfl <;> rfl
  rw [cutBare, List.takeWhile_append_of_pos hpos, List.dropWhile_append_of_pos hpos]
  simp [hstop]

/-- What a written value means: the value itself between apostrophes, and else the value
without the blanks at its ends. -/
def meantValue (value : List Char) : List Char :=
  if needsApostrophes value then value else trim value

theorem trim_meantValue (value : List Char) : trim (meantValue value) = trim value := by
  unfold meantValue
  split
  · rfl
  · exact trim_trim value

theorem singleApostrophes_doubleApostrophes (value : List Char) :
    singleApostrophes (doubleApostrophes value) = value := by
  induction value with
  | nil => rfl
  | cons c value ih =>
      by_cases hc : c = '\''
      · subst hc
        have hdouble : doubleApostrophes ('\'' :: value) =
            '\'' :: '\'' :: doubleApostrophes value := rfl
        rw [hdouble, singleApostrophes, ih]
      · have hsingle : doubleApostrophes (c :: value) = c :: doubleApostrophes value := by
          simp [doubleApostrophes, hc]
        rw [hsingle, singleApostrophes, ih]
        rintro tail heq -
        exact hc heq

/-- A value between apostrophes is cut out up to what follows it, and read as it is. -/
theorem cutValue_quoted {c : Char} (hc : EndsValue c) (value rest : List Char) :
    cutValue (trimStart ('\'' :: doubleApostrophes value ++ ['\''] ++ c :: rest)) =
        ('\'' :: (doubleApostrophes value ++ ['\'']), c :: rest) ∧
      readValue ('\'' :: (doubleApostrophes value ++ ['\''])) = value := by
  constructor
  · have hquoted : '\'' :: doubleApostrophes value ++ ['\''] ++ c :: rest =
        '\'' :: (doubleApostrophes value ++ '\'' :: c :: rest) := by simp
    rw [hquoted, trimStart_of_not_blank _ (by decide), cutValue,
      cutApostrophes_doubleApostrophes hc]
  · have htrim : trim ('\'' :: (doubleApostrophes value ++ ['\''])) =
        '\'' :: (doubleApostrophes value ++ ['\'']) :=
      trim_of_ends _ (by decide) (by decide)
    rw [readValue, htrim]
    simp [singleApostrophes_doubleApostrophes]

/-- A bare value is cut out up to what follows it, and read without the blanks at its
ends. -/
theorem cutValue_bare {value : List Char} (hplain : ∀ c ∈ value, c ≠ ',' ∧ c ≠ ')' ∧ c ≠ '\'')
    {c : Char} (hc : EndsValue c) (rest : List Char) :
    cutValue (trimStart (value ++ c :: rest)) = (trimStart value, c :: rest) ∧
      readValue (trimStart value) = trim value := by
  have hstart : ∀ d ∈ trimStart value, d ≠ ',' ∧ d ≠ ')' ∧ d ≠ '\'' :=
    fun d hd => hplain d ((List.dropWhile_suffix _).subset hd)
  constructor
  · have hbare := cutBare_append (fun d hd => ⟨(hstart d hd).1, (hstart d hd).2.1⟩) hc rest
    rw [trimStart_append_of_not_blank _ hc.not_blank]
    generalize trimStart value = text at hstart hbare ⊢
    cases text with
    | nil =>
        rw [List.nil_append] at hbare ⊢
        rw [cutValue, hbare]
        rintro tail htail
        exact hc.ne_apostrophe (List.cons.inj htail).1
    | cons d text =>
        rw [List.cons_append] at hbare ⊢
        rw [cutValue, hbare]
        rintro tail htail
        exact (hstart d List.mem_cons_self).2.2 (List.cons.inj htail).1
  · rw [readValue, trim_trimStart]
    split
    · rename_i heq
      have hmem : '\'' ∈ trim value := by
        rw [heq]
        exact List.mem_cons_self
      exact absurd rfl (hplain '\'' ((sublist_trim value).subset hmem)).2.2
    · rfl

/-- A written value is cut out up to what follows it, and means what was written. -/
theorem cutValue_writeValue {c : Char} (hc : EndsValue c) (value rest : List Char) :
    ∃ written, cutValue (trimStart (writeValue value ++ c :: rest)) = (written, c :: rest) ∧
      readValue written = meantValue value := by
  rw [writeValue, meantValue]
  cases hneeds : needsApostrophes value with
  | true => exact ⟨_, cutValue_quoted hc value rest⟩
  | false => exact ⟨_, cutValue_bare (fun _ => plain_of_not_needsApostrophes hneeds) hc rest⟩

/-! ## Attributes -/

theorem attributesOf_nil : attributesOf [] = [] := by
  rw [attributesOf]

theorem attributesOf_cons_of_not_word {c : Char} (hc : isWordChar c = false) (rest : List Char) :
    attributesOf (c :: rest) = attributesOf rest := by
  rw [attributesOf]
  simp [hc]

/-- An attribute in front of something else: its name, the sign `:=` between spaces, and
its value. -/
theorem attributesOf_attribute {c : Char} {name : List Char}
    (hword : (c :: name).all isWordChar = true) {d : Char} (hd : EndsValue d)
    (value rest : List Char) :
    attributesOf (c :: (name ++ ' ' :: ':' :: '=' :: ' ' :: (writeValue value ++ d :: rest))) =
      (String.ofList (c :: name), String.ofList (meantValue value)) ::
        attributesOf (d :: rest) := by
  have hname : ∀ d ∈ c :: name, isWordChar d = true := List.all_eq_true.mp hword
  have hstop : isWordChar ' ' = false := by decide
  have htake : (name ++ ' ' :: ':' :: '=' :: ' ' :: (writeValue value ++ d :: rest)).takeWhile
      isWordChar = name := by
    rw [List.takeWhile_append_of_pos fun e he => hname e (List.mem_cons_of_mem _ he)]
    simp [hstop]
  have hdrop : (name ++ ' ' :: ':' :: '=' :: ' ' :: (writeValue value ++ d :: rest)).dropWhile
      isWordChar = ' ' :: ':' :: '=' :: ' ' :: (writeValue value ++ d :: rest) := by
    rw [List.dropWhile_append_of_pos fun e he => hname e (List.mem_cons_of_mem _ he)]
    simp [hstop]
  have hsign : trimStart (' ' :: ':' :: '=' :: ' ' :: (writeValue value ++ d :: rest)) =
      ':' :: '=' :: ' ' :: (writeValue value ++ d :: rest) := rfl
  have hspace : trimStart (' ' :: (writeValue value ++ d :: rest)) =
      trimStart (writeValue value ++ d :: rest) := rfl
  -- The value ends in front of what follows it, and means what was written.
  obtain ⟨written, hcut, hread⟩ := cutValue_writeValue hd value rest
  rw [attributesOf]
  simp only [hname c List.mem_cons_self, if_true, htake]
  split
  · rename_i found heq
    rw [hdrop, hsign] at heq
    obtain rfl := (List.cons.inj (List.cons.inj heq).2).2
    rw [hspace, hcut, hread]
  · rename_i hnone
    rw [hdrop, hsign] at hnone
    exact absurd rfl (hnone _)

end PlcTags.Table
