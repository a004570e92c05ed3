import Mathlib.Data.List.TakeWhile
import PlcTags.Proofs.Source.Code

/-!
# The parts of a statement

Where a statement is taken apart.  The names end at the first place at which the rest can
be read, so a place is passed over if it shows neither a colon nor the word `AT` with an
address behind it (`readFrom?_word`, `readFrom?_separators`).  Of the ways to end an address
the first that can be read is taken, and this is the longest address in front of a colon
(`head?_addressCuts_of_gap`, `head?_addressCuts_of_colon`).
-/

namespace PlcTags.Source.Statement

variable {names text rest : List Char}

/-! ## Addresses -/

theorem colonCuts_of_notMem {before run : List Char} (h : ':' ∉ run) :
    colonCuts before run = [] := by
  induction run generalizing before with
  | nil => rfl
  | cons c run ih =>
      have hc : ¬ (c = ':' ∧ before ≠ []) := by
        rintro ⟨rfl, -⟩
        exact h List.mem_cons_self
      rw [colonCuts, ih fun hmem => h (List.mem_cons_of_mem _ hmem), if_neg hc]
      rfl

/-- A colon does not end an address that would be empty. -/
theorem colonCuts_of_notMem_tail {run : List Char} (h : ':' ∉ run.tail) :
    colonCuts [] run = [] := by
  cases run with
  | nil => rfl
  | cons c run =>
      have h : ':' ∉ run := h
      rw [colonCuts, colonCuts_of_notMem h, if_neg fun hc => hc.2 rfl]
      rfl

/-- The last colon is where the longest address ends. -/
theorem head?_colonCuts {before run rest : List Char} (hne : before.reverse ++ run ≠ [])
    (hrest : ':' ∉ rest) :
    (colonCuts before (run ++ ':' :: rest)).head? = some (before.reverse ++ run, rest) := by
  induction run generalizing before with
  | nil =>
      have hbefore : before ≠ [] := fun h => hne (by simp [h])
      rw [List.nil_append, colonCuts, colonCuts_of_notMem hrest, if_pos ⟨rfl, hbefore⟩]
      simp
  | cons c run ih =>
      have hstep := @ih (c :: before) (by simp)
      rw [List.cons_append, colonCuts, List.head?_append, hstep]
      simp

/-- A text falls apart at its first blank. -/
theorem takeWhile_dropWhile_append {run after : List Char}
    (hrun : ∀ c ∈ run, Text.isBlank c = false)
    (hafter : ∀ c ∈ after.head?, Text.isBlank c = true) :
    (run ++ after).takeWhile (fun c => !Text.isBlank c) = run ∧
      (run ++ after).dropWhile (fun c => !Text.isBlank c) = after := by
  have hall : ∀ c ∈ run, (fun c => !Text.isBlank c) c = true := fun c hc => by simp [hrun c hc]
  rw [List.takeWhile_append_of_pos hall, List.dropWhile_append_of_pos hall]
  cases after with
  | nil => simp
  | cons c after => simp [hafter c rfl]

/-- An address reaches to a blank at most, if no colon follows the blanks. -/
theorem addressCuts_append {run after : List Char} (hrun : ∀ c ∈ run, Text.isBlank c = false)
    (hafter : ∀ c ∈ after.head?, Text.isBlank c = true)
    (hnext : (Text.trimStart after).head? ≠ some ':') :
    addressCuts (run ++ after) =
      (colonCuts [] run).map fun (address, rest) => (address, rest ++ after) := by
  obtain ⟨htake, hdrop⟩ := takeWhile_dropWhile_append hrun hafter
  unfold addressCuts
  rw [htake, hdrop]
  dsimp only
  split
  · rename_i htrim
    rw [htrim] at hnext
    exact absurd rfl hnext
  · rw [List.nil_append]

/-- No address can be read if no colon follows its first character, whether at once or
behind blanks. -/
theorem addressCuts_eq_nil {run after : List Char} (hrun : ∀ c ∈ run, Text.isBlank c = false)
    (hafter : ∀ c ∈ after.head?, Text.isBlank c = true) (hcolon : ':' ∉ run.tail)
    (hnext : (Text.trimStart after).head? ≠ some ':') : addressCuts (run ++ after) = [] := by
  rw [addressCuts_append hrun hafter hnext, colonCuts_of_notMem_tail hcolon, List.map_nil]

theorem trimStart_gap {gap : List Char} {c : Char} (rest : List Char)
    (hgap : ∀ c ∈ gap, Text.isBlank c = true) (hc : Text.isBlank c = false) :
    Text.trimStart (gap ++ c :: rest) = c :: rest := by
  rw [Text.trimStart, List.dropWhile_append_of_pos hgap]
  exact Text.trimStart_of_not_blank rest hc

/-- A colon behind blanks is preferred. -/
theorem head?_addressCuts_of_gap {address gap : List Char} (rest : List Char)
    (haddress : ∀ c ∈ address, Text.isBlank c = false) (hne : address ≠ [])
    (hgap : ∀ c ∈ gap, Text.isBlank c = true) (hgapne : gap ≠ []) :
    (addressCuts (address ++ (gap ++ ':' :: rest))).head? = some (address, rest) := by
  have hafter : ∀ c ∈ (gap ++ ':' :: rest).head?, Text.isBlank c = true := by
    obtain ⟨c, gap, rfl⟩ := List.exists_cons_of_ne_nil hgapne
    rintro d ⟨⟩
    exact hgap c List.mem_cons_self
  obtain ⟨c, tail, rfl⟩ := List.exists_cons_of_ne_nil hne
  obtain ⟨htake, hdrop⟩ := takeWhile_dropWhile_append haddress hafter
  unfold addressCuts
  rw [htake, hdrop]
  dsimp only
  rw [trimStart_gap rest hgap (by decide)]
  rfl

/-- Otherwise the address ends at the last colon in front of a blank. -/
theorem head?_addressCuts_of_colon {address run after : List Char}
    (haddress : ∀ c ∈ address, Text.isBlank c = false) (hne : address ≠ [])
    (hrun : ∀ c ∈ run, Text.isBlank c = false) (hcolon : ':' ∉ run)
    (hafter : ∀ c ∈ after.head?, Text.isBlank c = true)
    (hnext : (Text.trimStart after).head? ≠ some ':') :
    (addressCuts (address ++ ':' :: (run ++ after))).head? = some (address, run ++ after) := by
  have hblank : ∀ c ∈ address ++ ':' :: run, Text.isBlank c = false :=
    List.forall_mem_append.mpr ⟨haddress, List.forall_mem_cons.mpr ⟨by decide, hrun⟩⟩
  have hcut : (colonCuts [] (address ++ ':' :: run)).head? = some (address, run) :=
    head?_colonCuts (by simpa using hne) hcolon
  have hsplit : address ++ ':' :: (run ++ after) = (address ++ ':' :: run) ++ after := by simp
  rw [hsplit, addressCuts_append hblank hafter hnext, List.head?_map, hcut]
  rfl

/-- The last colon of the statement ends the address, if only a blank behind it does. -/
theorem head?_addressCuts_of_notMem {address rest : List Char}
    (haddress : ∀ c ∈ address, Text.isBlank c = false) (hne : address ≠ [])
    (hrest : ':' ∉ rest) : (addressCuts (address ++ ':' :: rest)).head? = some (address, rest) := by
  have hrun : ∀ c ∈ rest.takeWhile (fun c => !Text.isBlank c), Text.isBlank c = false :=
    fun c hc => by simpa using List.mem_takeWhile_imp hc
  have hafter : ∀ c ∈ (rest.dropWhile fun c => !Text.isBlank c).head?, Text.isBlank c = true := by
    intro c hc
    have := List.head?_dropWhile_not (fun c => !Text.isBlank c) rest
    rw [hc] at this
    simpa using this
  have hnext : (Text.trimStart (rest.dropWhile fun c => !Text.isBlank c)).head? ≠ some ':' := by
    intro heq
    exact hrest ((List.dropWhile_suffix _).subset
      ((List.dropWhile_suffix _).subset (List.mem_of_head? heq)))
  have hcolon : ':' ∉ rest.takeWhile fun c => !Text.isBlank c :=
    fun hmem => hrest ((List.takeWhile_prefix _).subset hmem)
  have h := head?_addressCuts_of_colon haddress hne hrun hcolon hafter hnext
  rwa [List.takeWhile_append_dropWhile] at h

theorem mem_colonCuts {before run : List Char} {cut : List Char × List Char}
    (h : cut ∈ colonCuts before run) :
    cut.1 ≠ [] ∧ before.reverse ++ run = cut.1 ++ ':' :: cut.2 := by
  induction run generalizing before with
  | nil => cases h
  | cons c run ih =>
      rcases List.mem_append.mp h with h | h
      · obtain ⟨hne, heq⟩ := ih h
        refine ⟨hne, heq ▸ ?_⟩
        rw [List.reverse_cons, List.append_assoc]
        rfl
      · split at h
        · rename_i hc
          rw [List.mem_singleton.mp h, hc.1]
          exact ⟨by simpa using hc.2, rfl⟩
        · cases h

/-- An address has no blanks, and only blanks stand between it and the colon. -/
theorem mem_addressCuts {cut : List Char × List Char} (h : cut ∈ addressCuts text) :
    cut.1 ≠ [] ∧ (∀ c ∈ cut.1, Text.isBlank c = false) ∧
      ∃ gap, (∀ c ∈ gap, Text.isBlank c = true) ∧ text = cut.1 ++ (gap ++ ':' :: cut.2) := by
  have hrun : ∀ c ∈ text.takeWhile (fun c => !Text.isBlank c), Text.isBlank c = false :=
    fun c hc => by simpa using List.mem_takeWhile_imp hc
  have hsplit := List.takeWhile_append_dropWhile (p := fun c => !Text.isBlank c) (l := text)
  unfold addressCuts at h
  dsimp only at h
  rcases List.mem_append.mp h with h | h
  · split at h
    · rename_i c run rest htake htrim
      rw [List.mem_singleton.mp h]
      refine ⟨by simp [htake], hrun,
        (text.dropWhile fun c => !Text.isBlank c).takeWhile Text.isBlank,
        fun c hc => List.mem_takeWhile_imp hc, ?_⟩
      rw [← htrim, Text.trimStart, List.takeWhile_append_dropWhile, hsplit]
    · cases h
  · obtain ⟨inner, hmem, rfl⟩ := List.mem_map.mp h
    obtain ⟨hne, heq⟩ := mem_colonCuts hmem
    rw [List.reverse_nil, List.nil_append] at heq
    refine ⟨hne, fun c hc => hrun c (heq ▸ List.mem_append_left _ hc), [],
      List.forall_mem_nil _, ?_⟩
    exact (hsplit.symm.trans (congrArg (· ++ _) heq)).trans (List.append_assoc ..)

/-! ## Types and defaults -/

theorem bne_colon_of_notMem (h : ':' ∉ text) : ∀ c ∈ text, (c != ':') = true := by
  intro c hc
  refine bne_iff_ne.mpr ?_
  rintro rfl
  exact h hc

theorem typeAndDefault?_of_notMem (h : ':' ∉ text) (hne : text ≠ []) :
    typeAndDefault? text = some (text, []) := by
  have hall := bne_colon_of_notMem h
  have htake : text.takeWhile (· != ':') = text := List.takeWhile_eq_self_iff.mpr hall
  have hdrop : text.dropWhile (· != ':') = [] := List.dropWhile_eq_nil_iff.mpr hall
  rw [typeAndDefault?, htake, hdrop]
  simpa using hne

/-- A text falls apart at its first colon. -/
theorem takeWhile_dropWhile_colon (h : ':' ∉ text) (rest : List Char) :
    (text ++ ':' :: rest).takeWhile (· != ':') = text ∧
      (text ++ ':' :: rest).dropWhile (· != ':') = ':' :: rest := by
  have hall := bne_colon_of_notMem h
  rw [List.takeWhile_append_of_pos hall, List.dropWhile_append_of_pos hall,
    List.takeWhile_cons_of_neg (by decide), List.dropWhile_cons_of_neg (by decide),
    List.append_nil]
  exact ⟨rfl, rfl⟩

theorem typeAndDefault?_of_default (h : ':' ∉ text) (hne : text ≠ []) (rest : List Char) :
    typeAndDefault? (text ++ ':' :: '=' :: rest) = some (text, Text.trim rest) := by
  obtain ⟨htake, hdrop⟩ := takeWhile_dropWhile_colon h ('=' :: rest)
  rw [typeAndDefault?, htake, hdrop]
  simpa using hne

/-- In front of a colon a type can be read if an equals sign follows the colon. -/
theorem isSome_typeAndDefault?_colon (h : ':' ∉ text) (rest : List Char) :
    (typeAndDefault? (text ++ ':' :: rest)).isSome =
      (!text.isEmpty && rest.head? == some '=') := by
  obtain ⟨htake, hdrop⟩ := takeWhile_dropWhile_colon h rest
  rw [typeAndDefault?, htake, hdrop]
  cases text.isEmpty with
  | true => rfl
  | false =>
      rcases rest with - | ⟨c, rest⟩
      · rfl
      · by_cases hc : c = '='
        · subst hc
          rfl
        · simp [hc]

/-! ## The word `AT` -/

/-- Whether a word is `AT`, in any case. -/
def isAt (word : List Char) : Bool :=
  word.map Char.toUpper == ['A', 'T']

theorem afterAt?_of_isAt {word : List Char} (h : isAt word = true) {blank : Char}
    (hblank : Text.isBlank blank = true) (rest : List Char) :
    afterAt? (word ++ blank :: rest) = some (Text.trimStart rest) := by
  rw [isAt, beq_iff_eq, List.map_eq_cons_iff] at h
  obtain ⟨a, tail, rfl, ha, h⟩ := h
  obtain ⟨t, tail, rfl, ht, h⟩ := List.map_eq_cons_iff.mp h
  obtain rfl := List.map_eq_nil_iff.mp h
  show afterAt? (a :: t :: blank :: rest) = _
  rw [afterAt?, ha, ht, hblank]
  rfl

/-- A name is only taken for the word `AT` if it is spelled so and blanks follow. -/
theorem of_afterAt?_word {word : List Char} (hword : ∀ c ∈ word, isNameChar c = true)
    (hne : word ≠ []) (hrest : ∀ c ∈ rest.head?, isSeparator c = true)
    (h : afterAt? (word ++ rest) = some text) :
    isAt word = true ∧
      ∃ blank tail, rest = blank :: tail ∧ Text.isBlank blank = true ∧
        text = Text.trimStart tail := by
  rcases word with - | ⟨a, - | ⟨t, - | ⟨c, word⟩⟩⟩
  · exact absurd rfl hne
  · -- A single letter is followed by a separator, not by a letter.
    rcases rest with - | ⟨t, - | ⟨blank, rest⟩⟩
    · cases h
    · cases h
    · have ht : t.toUpper ≠ 'T' := (spec_of_isSeparator (hrest t rfl)).2.2.2.1
      simp [afterAt?, ht] at h
  · rcases rest with - | ⟨blank, rest⟩
    · cases h
    · change afterAt? (a :: t :: blank :: rest) = some text at h
      rw [afterAt?, Option.ite_none_right_eq_some] at h
      obtain ⟨hat, h⟩ := h
      obtain rfl := Option.some.inj h
      simp only [Bool.and_eq_true, beq_iff_eq] at hat
      obtain ⟨⟨ha, ht⟩, hblank⟩ := hat
      refine ⟨?_, blank, rest, rfl, hblank, rfl⟩
      simp [isAt, ha, ht]
  · -- The third character of a name is no blank.
    have hblank : Text.isBlank c = false := Vendor.isBlank_of_isAlphanum (hword c (by simp))
    simp [afterAt?, hblank] at h

/-- What follows the word `AT` is the end of the text. -/
theorem exists_of_afterAt? (h : afterAt? text = some rest) :
    ∃ front, text = front ++ rest := by
  unfold afterAt? at h
  split at h
  · rename_i a t blank tail
    split at h
    · obtain rfl := Option.some.inj h
      obtain ⟨gap, heq⟩ := List.dropWhile_suffix (l := tail) Text.isBlank
      exact ⟨a :: t :: blank :: gap, congrArg (a :: t :: blank :: ·) heq.symm⟩
    · cases h
  · cases h

/-! ## Where the names end -/

/-- A statement whose names end in front of the word `AT`. -/
def addressed? (names text : List Char) : Option Statement :=
  if names.head?.any Text.isWordChar then none
  else (afterAt? text).bind fun rest =>
    (addressCuts rest).findSome? fun (address, rest) =>
      (typeAndDefault? rest).map fun (typeName, defaultValue) =>
        ⟨Text.trim names.reverse, address, typeName, defaultValue⟩

/-- Where there is no colon, the word `AT` must stand. -/
theorem tail?_of_ne_colon {c : Char} (hc : c ≠ ':') :
    tail? names (c :: rest) = addressed? names (c :: rest) := by
  unfold tail?
  dsimp only
  split
  · rename_i heq
    exact heq.symm
  · rename_i heq
    exact absurd (List.cons.inj heq).1 hc
  · rename_i heq _
    exact heq.symm

theorem tail?_colon : tail? names (':' :: rest) =
    (typeAndDefault? rest).map fun (typeName, defaultValue) =>
      ⟨Text.trim names.reverse, [], typeName, defaultValue⟩ := by
  have hnone : addressed? names (':' :: rest) = none := by
    have hat : afterAt? (':' :: rest) = none := by
      rcases rest with - | ⟨t, - | ⟨blank, rest⟩⟩ <;> rfl
    rw [addressed?, hat]
    split <;> rfl
  unfold tail?
  dsimp only
  split
  · rename_i heq
    exact absurd (heq.symm.trans hnone) (Option.some_ne_none _)
  · rename_i heq
    rw [(List.cons.inj heq).2]
  · rename_i hne
    exact absurd rfl (hne rest)

theorem addressed?_of_cut {address after typeName defaultValue : List Char}
    (hnames : names.head?.any Text.isWordChar = false) (hat : afterAt? text = some rest)
    (hcut : (addressCuts rest).head? = some (address, after))
    (htype : typeAndDefault? after = some (typeName, defaultValue)) :
    addressed? names text = some ⟨Text.trim names.reverse, address, typeName, defaultValue⟩ := by
  obtain ⟨cuts, hcuts⟩ : ∃ cuts, addressCuts rest = (address, after) :: cuts :=
    List.head?_eq_some_iff.mp hcut
  rw [addressed?, hnames, hat, Option.bind_some, hcuts, List.findSome?_cons]
  dsimp only
  rw [htype]
  rfl

theorem addressed?_eq_none (h : names.head?.any Text.isWordChar = true ∨
    ∀ rest, afterAt? text = some rest → addressCuts rest = []) : addressed? names text = none := by
  unfold addressed?
  split
  · rfl
  · rename_i hnames
    have hnone := h.resolve_left hnames
    cases hat : afterAt? text with
    | none => rfl
    | some rest =>
        rw [Option.bind_some, hnone rest hat]
        rfl

/-- What is read behind the word `AT` is an address, and a type behind the colon. -/
theorem exists_of_addressed? {statement : Statement}
    (h : addressed? names text = some statement) :
    names.head?.any Text.isWordChar = false ∧ statement.names = Text.trim names.reverse ∧
      ∃ rest after, afterAt? text = some rest ∧ (statement.address, after) ∈ addressCuts rest ∧
        (typeAndDefault? after).isSome = true := by
  unfold addressed? at h
  split at h
  · cases h
  · rename_i hnames
    obtain ⟨rest, hat, h⟩ := Option.bind_eq_some_iff.mp h
    obtain ⟨⟨address, after⟩, hmem, h⟩ := List.exists_of_findSome?_eq_some h
    obtain ⟨⟨typeName, defaultValue⟩, htype, rfl⟩ := Option.map_eq_some_iff.mp h
    exact ⟨Bool.eq_false_iff.mpr hnames, rfl, rest, after, hat, hmem, by rw [htype]; rfl⟩

/-- Whatever is read behind the word `AT` has an address. -/
theorem address_ne_nil_of_addressed? {statement : Statement}
    (h : addressed? names text = some statement) : statement.address ≠ [] := by
  obtain ⟨-, -, rest, after, -, hmem, -⟩ := exists_of_addressed? h
  exact (mem_addressCuts hmem).1

/-- The names are what has been passed. -/
theorem names_of_tail? {statement : Statement} (h : tail? names text = some statement) :
    statement.names = Text.trim names.reverse := by
  cases text with
  | nil => simp [tail?, afterAt?] at h
  | cons c rest =>
      by_cases hc : c = ':'
      · subst hc
        rw [tail?_colon] at h
        obtain ⟨⟨typeName, defaultValue⟩, -, rfl⟩ := Option.map_eq_some_iff.mp h
        rfl
      · rw [tail?_of_ne_colon hc] at h
        exact (exists_of_addressed? h).2.1

theorem readFrom?_cons_of_none {c : Char} (h : names = [] ∨ tail? names (c :: rest) = none) :
    readFrom? names (c :: rest) = readFrom? (c :: names) rest := by
  rw [readFrom?]
  rcases h with rfl | h
  · rfl
  · rw [h, ite_self]

theorem readFrom?_cons_of_some {c : Char} {statement : Statement} (hne : names ≠ [])
    (h : tail? names (c :: rest) = some statement) :
    readFrom? names (c :: rest) = some statement := by
  have hnames : names.isEmpty = false := List.isEmpty_eq_false_iff.mpr hne
  rw [readFrom?, hnames, h]
  rfl

/-- **Blanks and commas are passed over.** -/
theorem readFrom?_separators {gap : List Char}
    (hgap : ∀ c ∈ gap, isSeparator c = true ∧ c ≠ ':') :
    readFrom? names (gap ++ rest) = readFrom? (gap.reverse ++ names) rest := by
  induction gap generalizing names with
  | nil => rfl
  | cons c gap ih =>
      obtain ⟨⟨hc, hcolon⟩, hgap⟩ := List.forall_mem_cons.mp hgap
      have hupper : c.toUpper ≠ 'A' := (spec_of_isSeparator hc).2.2.1
      have hat : afterAt? (c :: (gap ++ rest)) = none := by
        rcases gap ++ rest with - | ⟨t, - | ⟨blank, tail⟩⟩
        · rfl
        · rfl
        · simp [afterAt?, hupper]
      have hnone : tail? names (c :: (gap ++ rest)) = none := by
        rw [tail?_of_ne_colon hcolon, addressed?_eq_none]
        exact .inr fun text h => by rw [hat] at h; cases h
      rw [List.cons_append, readFrom?_cons_of_none (.inr hnone), ih hgap, List.reverse_cons,
        List.append_assoc]
      rfl

/-- The characters of a name behind its first are passed over. -/
theorem readFrom?_wordRest {word : List Char} (hword : ∀ c ∈ word, isNameChar c = true)
    (hnames : names.head?.any Text.isWordChar = true) :
    readFrom? names (word ++ rest) = readFrom? (word.reverse ++ names) rest := by
  induction word generalizing names with
  | nil => rfl
  | cons c word ih =>
      obtain ⟨hc, hword⟩ := List.forall_mem_cons.mp hword
      have hnone : tail? names (c :: (word ++ rest)) = none := by
        rw [tail?_of_ne_colon (ne_of_isNameChar hc (by decide)), addressed?_eq_none (.inl hnames)]
      have hhead : (c :: names).head?.any Text.isWordChar = true := isWordChar_of_isNameChar hc
      rw [List.cons_append, readFrom?_cons_of_none (.inr hnone), ih hword hhead,
        List.reverse_cons, List.append_assoc]
      rfl

/-- **A name is passed over**, unless it is taken for the word `AT`. -/
theorem readFrom?_word {word : List Char} (hword : ∀ c ∈ word, isNameChar c = true)
    (hfirst : names = [] ∨ ∀ text, afterAt? (word ++ rest) = some text → addressCuts text = []) :
    readFrom? names (word ++ rest) = readFrom? (word.reverse ++ names) rest := by
  cases word with
  | nil => rfl
  | cons c word =>
      obtain ⟨hc, hword⟩ := List.forall_mem_cons.mp hword
      have hnone : names = [] ∨ tail? names (c :: (word ++ rest)) = none := by
        refine hfirst.imp_right fun h => ?_
        rw [tail?_of_ne_colon (ne_of_isNameChar hc (by decide))]
        exact addressed?_eq_none (.inr h)
      have hhead : (c :: names).head?.any Text.isWordChar = true := isWordChar_of_isNameChar hc
      rw [List.cons_append, readFrom?_cons_of_none hnone, readFrom?_wordRest hword hhead,
        List.reverse_cons, List.append_assoc]
      rfl

/-! ## Texts that could be complete -/

/-- Wherever the names end, a colon stands behind them, and behind this what reads as a type. -/
theorem exists_colon_of_tail? {statement : Statement} (h : tail? names text = some statement) :
    ∃ front rest, text = front ++ ':' :: rest ∧ (typeAndDefault? rest).isSome = true := by
  cases text with
  | nil => simp [tail?, afterAt?] at h
  | cons c rest =>
      by_cases hc : c = ':'
      · subst hc
        rw [tail?_colon] at h
        obtain ⟨found, hfound, -⟩ := Option.map_eq_some_iff.mp h
        exact ⟨[], rest, rfl, by rw [hfound]; rfl⟩
      · rw [tail?_of_ne_colon hc] at h
        obtain ⟨-, -, behind, after, hat, hmem, htype⟩ := exists_of_addressed? h
        obtain ⟨front, heq⟩ := exists_of_afterAt? hat
        obtain ⟨-, -, gap, -, hcut⟩ := mem_addressCuts hmem
        refine ⟨front ++ (statement.address ++ gap), after, ?_, htype⟩
        rw [heq, hcut]
        simp

theorem exists_colon_of_readFrom? {statement : Statement}
    (h : readFrom? names text = some statement) :
    ∃ front rest, text = front ++ ':' :: rest ∧ (typeAndDefault? rest).isSome = true := by
  induction text generalizing names with
  | nil => cases h
  | cons c text ih =>
      rw [readFrom?] at h
      split at h
      · rename_i heq
        split at heq
        · cases heq
        · exact exists_colon_of_tail? heq
      · obtain ⟨front, rest, rfl, htype⟩ := ih h
        exact ⟨c :: front, rest, rfl, htype⟩

/-- A statement can be read if its names can end at some place. -/
theorem isSome_readFrom?_append {front : List Char} (hne : front.reverse ++ names ≠ [])
    (h : (tail? (front.reverse ++ names) text).isSome = true) :
    (readFrom? names (front ++ text)).isSome = true := by
  induction front generalizing names with
  | nil =>
      obtain ⟨statement, heq⟩ := Option.isSome_iff_exists.mp h
      obtain ⟨c, rest, rfl⟩ : ∃ c rest, text = c :: rest := by
        obtain ⟨passed, rest, rfl, -⟩ := exists_colon_of_tail? heq
        exact List.exists_cons_of_ne_nil (by simp)
      have hread : readFrom? names (c :: rest) = some statement := readFrom?_cons_of_some hne heq
      rw [List.nil_append, hread]
      rfl
  | cons c front ih =>
      have hlater := @ih (c :: names) (by simp) (by simpa using h)
      rw [List.cons_append, readFrom?]
      split
      · rfl
      · exact hlater

/-- A statement can be read if a type can be read behind one of its colons. -/
theorem isSome_read?_colon {front : List Char} (hne : front ≠ [])
    (h : (typeAndDefault? text).isSome = true) :
    (read? (front ++ ':' :: text)).isSome = true := by
  refine isSome_readFrom?_append (by simpa using hne) ?_
  rwa [tail?_colon, Option.isSome_map]

/-- Whether a colon stands in a text, and something behind the last one. -/
def HasInnerColon (text : List Char) : Prop :=
  ':' ∈ text ∧ text.getLast? ≠ some ':'

instance (text : List Char) : Decidable (HasInnerColon text) :=
  inferInstanceAs (Decidable (_ ∧ _))

/-- **Without a default** a statement can be read if something stands behind its colons. -/
theorem isSome_read?_iff (hequals : '=' ∉ text) (hfirst : text.head? ≠ some ':') :
    (read? text).isSome = true ↔ HasInnerColon text := by
  refine ⟨fun h => ?_, fun ⟨hmem, hlast⟩ => ?_⟩
  · obtain ⟨statement, hread⟩ := Option.isSome_iff_exists.mp h
    obtain ⟨front, rest, rfl, htype⟩ := exists_colon_of_readFrom? hread
    have hrest : ':' ∉ rest := by
      intro hmem
      obtain ⟨type, behind, rfl, hnot⟩ := List.eq_append_cons_of_mem hmem
      rw [isSome_typeAndDefault?_colon hnot, Bool.and_eq_true, beq_iff_eq] at htype
      exact hequals (by simp [List.mem_of_head? htype.2])
    have hne : rest ≠ [] := by
      rintro rfl
      cases htype
    refine ⟨by simp, fun hlast => hrest ?_⟩
    rw [List.getLast?_append, List.getLast?_cons, List.getLast?_eq_some_getLast hne] at hlast
    exact Option.some.inj hlast ▸ List.getLast_mem hne
  · -- The names may end at the last colon.
    obtain ⟨behind, front, heq, hnot⟩ := List.eq_append_cons_of_mem (List.mem_reverse.mpr hmem)
    obtain rfl : text = front.reverse ++ ':' :: behind.reverse := by
      rw [← List.reverse_reverse text, heq]
      simp
    refine isSome_read?_colon ?_ ?_
    · rintro hnil
      rw [hnil] at hfirst
      exact hfirst rfl
    · have hne : behind.reverse ≠ [] := by
        rintro hnil
        rw [hnil] at hlast
        exact hlast (by simp)
      rw [typeAndDefault?_of_notMem (by simpa using hnot) hne]
      rfl

end PlcTags.Source.Statement
