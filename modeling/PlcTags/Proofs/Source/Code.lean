import Mathlib.Data.Bool.AllAny
import PlcTags.Proofs.Address.Spelling
import PlcTags.Proofs.Tag.Name
import PlcTags.Source.Extraction

/-!
# Code that is passed on

A text is plain if it holds neither quotes nor the beginning of a comment, of braces that
are skipped, or of another line, no semicolon, and not the word `END_VAR`.  A plain text is
code throughout: the lines that are read hold it as it is (`linesFrom_of_isCode`), and no
piece of a line ends inside it (`cutFrom_of_isCode`).

What is plain is decided part by part, because a separator ends every word and every mark
(`IsPlain.append`): blanks, commas, colons and equals signs do so.
-/

namespace PlcTags.Source

/-! ## Separators -/

/-- A blank that does not end the line. -/
def isGap (c : Char) : Bool :=
  Text.isBlank c && c != '\n'

/-- What may stand between two parts of a declaration. -/
def isSeparator (c : Char) : Bool :=
  isGap c || c == ',' || c == ':' || c == '='

/-- All blanks. -/
def blanks : List Char :=
  ['\t', '\n', '\u000B', '\u000C', '\r', ' ', '\u0085', '\u00A0', '\u1680', '\u2000', '\u2001',
    '\u2002', '\u2003', '\u2004', '\u2005', '\u2006', '\u2007', '\u2008', '\u2009', '\u200A',
    '\u2028', '\u2029', '\u202F', '\u205F', '\u3000']

theorem mem_blanks {c : Char} (h : Text.isBlank c = true) : c ∈ blanks := by
  have hcodes : blanks.map Char.toNat = [9, 10, 11, 12, 13, 0x20, 0x85, 0xA0, 0x1680, 0x2000,
      0x2001, 0x2002, 0x2003, 0x2004, 0x2005, 0x2006, 0x2007, 0x2008, 0x2009, 0x200A, 0x2028,
      0x2029, 0x202F, 0x205F, 0x3000] := by decide
  have hmem : c.toNat ∈ blanks.map Char.toNat := by
    simp only [Text.isBlank, Bool.or_eq_true, Bool.and_eq_true, decide_eq_true_eq,
      beq_iff_eq] at h
    rw [hcodes]
    simp only [List.mem_cons, List.not_mem_nil, or_false]
    omega
  obtain ⟨blank, hblank, heq⟩ := List.mem_map.mp hmem
  exact Char.toNat_inj.mp heq ▸ hblank

theorem mem_of_isSeparator {c : Char} (h : isSeparator c = true) :
    c ∈ ',' :: ':' :: '=' :: blanks := by
  simp only [isSeparator, isGap, Bool.or_eq_true, Bool.and_eq_true, beq_iff_eq] at h
  rcases h with ((⟨hblank, -⟩ | rfl) | rfl) | rfl
  · simp [mem_blanks hblank]
  all_goals simp

/-- No separator belongs to a word or to a mark of comments, quotes or braces. -/
theorem spec_of_isSeparator {c : Char} (h : isSeparator c = true) :
    continuesName c = false ∧ Text.isWordChar c = false ∧ c.toUpper ≠ 'A' ∧ c.toUpper ≠ 'T' ∧
      c ∉ ['/', '*', '(', '\'', '"', '\x7b', ';'] := by
  have hall : ∀ c ∈ ',' :: ':' :: '=' :: blanks,
      continuesName c = false ∧ Text.isWordChar c = false ∧ c.toUpper ≠ 'A' ∧ c.toUpper ≠ 'T' ∧
        c ∉ ['/', '*', '(', '\'', '"', '\x7b', ';'] :=
    List.all_iff_forall_prop.mp (by decide +kernel)
  exact hall c (mem_of_isSeparator h)

theorem ne_newline_of_isSeparator {c : Char} (h : isSeparator c = true) : c ≠ '\n' := by
  rintro rfl
  revert h
  decide

/-! ## Lines of code -/

/-- Whether a character opens a text between quotes. -/
def isQuote (rules : CommentRules) (c : Char) : Bool :=
  c == '\'' || (rules.quotedNames && c == '"')

/-- Whether a text, with `next` behind it, is read as code throughout. -/
def isCode (rules : CommentRules) (next : Option Char) : List Char → Bool
  | [] => true
  | c :: rest =>
    c != '\n' && !isMark ('/', '/') c (rest.head?.or next) &&
      !isMark rules.blockOpen c (rest.head?.or next) && !(rules.braces && c == '\x7b') &&
      !isQuote rules c && isCode rules next rest

variable {rules : CommentRules}

theorem isCode_append {next : Option Char} (front back : List Char) :
    isCode rules next (front ++ back) =
      (isCode rules (back.head?.or next) front && isCode rules next back) := by
  induction front with
  | nil => rfl
  | cons c rest ih =>
      have hnext : (rest ++ back).head?.or next = rest.head?.or (back.head?.or next) := by
        rw [List.head?_append, Option.or_assoc]
      rw [List.cons_append, isCode, isCode, ih, hnext]
      simp only [Bool.and_assoc]

/-- Code may be followed by anything that is not the second character of a mark. -/
theorem isCode_of_none {next : Option Char} {text : List Char}
    (hrules : rules.blockOpen.2 = '*') (h : isCode rules none text = true)
    (hnext : ∀ c ∈ next, c ≠ '/' ∧ c ≠ '*') : isCode rules next text = true := by
  have hmark : ∀ mark c, mark = ('/', '/') ∨ mark = rules.blockOpen →
      isMark mark c next = false := by
    intro mark c hmark
    refine Bool.and_eq_false_iff.mpr (.inr (beq_false_of_ne fun heq => ?_))
    obtain ⟨hslash, hstar⟩ := hnext mark.2 heq
    rcases hmark with rfl | rfl
    · exact hslash rfl
    · exact hstar hrules
  induction text with
  | nil => rfl
  | cons c rest ih =>
      simp only [isCode, Bool.and_eq_true] at h ⊢
      obtain ⟨hfirst, hrest⟩ := h
      refine ⟨?_, ih hrest⟩
      cases rest with
      | nil =>
          obtain ⟨⟨⟨⟨hline, -⟩, -⟩, hbrace⟩, hquote⟩ := hfirst
          simp [hline, hbrace, hquote, hmark]
      | cons d tail => exact hfirst

/-- Code is code at the end of a text. -/
theorem none_of_isCode {next : Option Char} {text : List Char}
    (h : isCode rules next text = true) : isCode rules none text = true := by
  induction text with
  | nil => rfl
  | cons c rest ih =>
      simp only [isCode, Bool.and_eq_true] at h ⊢
      obtain ⟨hfirst, hrest⟩ := h
      refine ⟨?_, ih hrest⟩
      cases rest with
      | nil =>
          obtain ⟨⟨⟨⟨hline, -⟩, -⟩, hbrace⟩, hquote⟩ := hfirst
          simp [hline, hbrace, hquote, isMark]
      | cons d tail => exact hfirst

/-- **Code is passed on.** -/
theorem linesFrom_of_isCode {text rest : List Char} (draft : Draft)
    (h : isCode rules rest.head? text = true) :
    linesFrom rules .code draft (text ++ rest) =
      linesFrom rules .code { draft with code := text.reverse ++ draft.code } rest := by
  induction text generalizing draft with
  | nil => rfl
  | cons c tail ih =>
      simp only [isCode, Bool.and_eq_true, Bool.not_eq_true', bne_iff_ne] at h
      obtain ⟨⟨⟨⟨⟨hline, hslashes⟩, hopen⟩, hbrace⟩, hquote⟩, htail⟩ := h
      have hquote : (c == '\'' || (rules.quotedNames && c == '"')) = false := hquote
      have hread : readCode rules draft c (tail.head?.or rest.head?) =
          (.code, draft.addCode c) := by
        simp only [readCode, hslashes, hopen, hbrace, hquote, Bool.false_eq_true, if_false]
      rw [List.cons_append, linesFrom, if_neg hline, List.head?_append]
      simp only [readChar, hread]
      rw [ih _ htail, List.reverse_cons, List.append_assoc]
      rfl

/-! ## Pieces of a line -/

/-- Whether the word `END_VAR` stands in a text, in any case; `before` is the character in
front of the text. -/
def holdsEndVar (before : Option Char) : List Char → Bool
  | [] => false
  | c :: rest => (afterEndVar? before (c :: rest)).isSome || holdsEndVar (some c) rest

theorem toUpper_eq_or_isAlphanum (c : Char) : c.toUpper = c ∨ c.isAlphanum = true := by
  by_cases h : c.val ≥ 97 ∧ c.val ≤ 122
  · have hlower : c.isLower = true := by
      change (decide (c.val ≥ 97) && decide (c.val ≤ 122)) = true
      rw [decide_eq_true h.1, decide_eq_true h.2]
      rfl
    right
    change (c.isUpper || c.isLower || c.isDigit) = true
    rw [hlower, Bool.or_true, Bool.true_or]
  · exact .inl (dif_neg h)

/-- The word `END_VAR` is made of characters that continue a name. -/
theorem toUpper_notMem_endVar {c : Char} (h : continuesName c = false) : c.toUpper ∉ endVar := by
  have hletters : ∀ c ∈ endVar, continuesName c = true :=
    List.all_eq_true.mp (by decide +kernel)
  rcases toUpper_eq_or_isAlphanum c with heq | halphanum
  · rw [heq]
    intro hmem
    rw [hletters c hmem] at h
    cases h
  · rw [continuesName, Text.isLetterOrNumeral_of_isAlphanum halphanum] at h
    cases h

/-- Whether `END_VAR` stands at a place of a text is not decided by what follows the text, if
this does not continue a name. -/
theorem isSome_afterEndVar?_append {before : Option Char} {text rest : List Char}
    (hrest : ∀ c ∈ rest.head?, continuesName c = false) :
    (afterEndVar? before (text ++ rest)).isSome = (afterEndVar? before text).isSome := by
  have hany : rest.head?.any continuesName = false := by
    rw [Option.any_eq_false]
    exact fun c hc => by simp [hrest c hc]
  rcases Nat.lt_or_ge text.length endVar.length with hshort | hlong
  · -- Too short a text would have to be completed by a character of what follows.
    have hnone : ∀ more : List Char, (∀ c ∈ more.head?, continuesName c = false) →
        ((text ++ more).take endVar.length).map Char.toUpper ≠ endVar := by
      intro more hmore heq
      rw [List.take_append, List.take_of_length_le (Nat.le_of_lt hshort)] at heq
      cases more with
      | nil =>
          have hlength := congrArg List.length heq
          simp only [List.take_nil, List.append_nil, List.length_map] at hlength
          omega
      | cons c more =>
          refine toUpper_notMem_endVar (hmore c rfl) ?_
          rw [← heq]
          obtain ⟨n, hn⟩ := Nat.exists_eq_add_of_lt hshort
          have hcount : endVar.length - text.length = n + 1 := by omega
          simp [hcount]
    have htext := hnone [] (by simp)
    rw [List.append_nil] at htext
    rw [afterEndVar?, afterEndVar?, beq_false_of_ne (hnone rest hrest), beq_false_of_ne htext]
    rfl
  · have htake : (text ++ rest).take endVar.length = text.take endVar.length :=
      List.take_append_of_le_length hlong
    have hdrop : (text ++ rest).drop endVar.length = text.drop endVar.length ++ rest :=
      List.drop_append_of_le_length hlong
    have hnext : (text.drop endVar.length ++ rest).head?.any continuesName =
        (text.drop endVar.length).head?.any continuesName := by
      cases text.drop endVar.length with
      | nil => simpa using hany
      | cons c tail => rfl
    rw [afterEndVar?, afterEndVar?, htake, hdrop]
    dsimp only
    rw [hnext]
    split
    · split <;> rfl
    · rfl

/-- A word may begin behind a character that does not continue a name. -/
theorem holdsEndVar_some {c : Char} (hc : continuesName c = false) (text : List Char) :
    holdsEndVar (some c) text = holdsEndVar none text := by
  cases text with
  | nil => rfl
  | cons d tail =>
      have hbefore : afterEndVar? (some c) (d :: tail) = afterEndVar? none (d :: tail) := by
        simp [afterEndVar?, hc]
      rw [holdsEndVar, holdsEndVar, hbefore]

/-- A character that does not continue a name ends the word in front of it, and begins none. -/
theorem holdsEndVar_append {before : Option Char} (front : List Char) {c : Char}
    (back : List Char) (hc : continuesName c = false) :
    holdsEndVar before (front ++ c :: back) =
      (holdsEndVar before front || holdsEndVar none back) := by
  have hrest : ∀ d ∈ (c :: back).head?, continuesName d = false := by
    rintro d ⟨⟩
    exact hc
  induction front generalizing before with
  | nil =>
      have hfirst : c.toUpper ≠ 'E' := fun heq =>
        toUpper_notMem_endVar hc (heq ▸ by decide)
      have hnone : afterEndVar? before (c :: back) = none := by
        refine if_neg fun heq => hfirst ?_
        exact (List.cons.inj (beq_iff_eq.mp heq)).1
      rw [List.nil_append, holdsEndVar, holdsEndVar, hnone, holdsEndVar_some hc]
      rfl
  | cons d front ih =>
      rw [List.cons_append, holdsEndVar, holdsEndVar, ih, ← List.cons_append,
        isSome_afterEndVar?_append hrest, Bool.or_assoc]

/-- **No piece ends in code** without a semicolon and without `END_VAR`. -/
theorem cutFrom_of_isCode {next : Option Char} {before text rest : List Char}
    (hcode : isCode rules next text = true) (hsemicolon : ';' ∉ text)
    (hend : holdsEndVar before.head? text = false)
    (hrest : ∀ c ∈ rest.head?, continuesName c = false) :
    cutFrom rules .code before (text ++ rest) =
      cutFrom rules .code (text.reverse ++ before) rest := by
  induction text generalizing before with
  | nil => rfl
  | cons c tail ih =>
      simp only [isCode, Bool.and_eq_true, Bool.not_eq_true'] at hcode
      obtain ⟨⟨-, hquote⟩, htail⟩ := hcode
      have hquote : (c == '\'' || (rules.quotedNames && c == '"')) = false := hquote
      have hne : (c == ';') = false :=
        beq_false_of_ne fun heq => hsemicolon (heq ▸ List.mem_cons_self)
      simp only [holdsEndVar, Bool.or_eq_false_iff] at hend
      obtain ⟨hfirst, hlast⟩ := hend
      have hlast : holdsEndVar (c :: before).head? tail = false := hlast
      rw [← isSome_afterEndVar?_append hrest, Option.isSome_eq_false_iff, Option.isNone_iff_eq_none,
        List.cons_append] at hfirst
      rw [List.cons_append, cutFrom]
      · rw [hquote, hne, hfirst]
        dsimp only
        rw [if_neg Bool.false_ne_true, if_neg Bool.false_ne_true,
          ih htail (fun hmem => hsemicolon (List.mem_cons_of_mem _ hmem)) hlast,
          List.reverse_cons, List.append_assoc]
        rfl
      · intro quote escaped heq
        cases heq

/-! ## Plain texts -/

/-- A text that is code throughout, and in which no piece of a line ends. -/
structure IsPlain (rules : CommentRules) (text : List Char) : Prop where
  code : isCode rules none text = true
  noSemicolon : ';' ∉ text
  noEndVar : holdsEndVar none text = false

instance (rules : CommentRules) (text : List Char) : Decidable (IsPlain rules text) :=
  decidable_of_iff
    (isCode rules none text = true ∧ ';' ∉ text ∧ holdsEndVar none text = false)
    ⟨fun ⟨hcode, hsemicolon, hend⟩ => ⟨hcode, hsemicolon, hend⟩,
      fun h => ⟨h.code, h.noSemicolon, h.noEndVar⟩⟩

/-- The character that comes second in the mark that opens a comment. -/
theorem blockOpen_snd (vendor : Vendor) : vendor.commentRules.blockOpen.2 = '*' := by
  cases vendor <;> rfl

theorem isPlain_nil : IsPlain rules [] :=
  ⟨rfl, List.not_mem_nil, rfl⟩

variable {vendor : Vendor}

/-- **Plain texts are put together with separators.** -/
theorem IsPlain.append {front back : List Char} {c : Char}
    (hfront : IsPlain vendor.commentRules front) (hc : isSeparator c = true)
    (hback : IsPlain vendor.commentRules back) :
    IsPlain vendor.commentRules (front ++ c :: back) := by
  obtain ⟨hname, -, -, -, hmarks⟩ := spec_of_isSeparator hc
  simp only [List.mem_cons, List.not_mem_nil, or_false, not_or] at hmarks
  obtain ⟨hslash, hstar, hparen, hapostrophe, hquote, hbrace, hsemicolon⟩ := hmarks
  have hline := ne_newline_of_isSeparator hc
  refine ⟨?_, ?_, ?_⟩
  · have hbefore : isCode vendor.commentRules (some c) front = true :=
      isCode_of_none (blockOpen_snd vendor) hfront.code (by rintro d ⟨⟩; exact ⟨hslash, hstar⟩)
    have hopen : isMark vendor.commentRules.blockOpen c (back.head?.or none) = false := by
      have hne : (c == vendor.commentRules.blockOpen.1) = false := by
        cases vendor <;> simp [Vendor.commentRules, hslash, hparen]
      rw [isMark, hne, Bool.false_and]
    rw [isCode_append]
    show (isCode _ (some c) front && isCode _ none (c :: back)) = true
    rw [hbefore, isCode, hback.code, hopen]
    simp [isMark, isQuote, hslash, hapostrophe, hquote, hbrace, hline]
  · simp only [List.mem_append, List.mem_cons, not_or]
    exact ⟨hfront.noSemicolon, fun heq => hsemicolon heq.symm, hback.noSemicolon⟩
  · rw [holdsEndVar_append _ _ hname, hfront.noEndVar, hback.noEndVar]
    rfl

/-- There may be several separators. -/
theorem IsPlain.append_gap {front back gap : List Char}
    (hfront : IsPlain vendor.commentRules front) (hgap : ∀ c ∈ gap, isSeparator c = true)
    (hne : gap ≠ []) (hback : IsPlain vendor.commentRules back) :
    IsPlain vendor.commentRules (front ++ (gap ++ back)) := by
  induction gap generalizing front with
  | nil => exact absurd rfl hne
  | cons c gap ih =>
      obtain ⟨hc, hgap⟩ := List.forall_mem_cons.mp hgap
      rcases gap with - | ⟨d, gap⟩
      · exact hfront.append hc hback
      · exact hfront.append hc (ih isPlain_nil hgap (List.cons_ne_nil d gap))

/-- **A separator takes a plain text apart.** -/
theorem IsPlain.of_append {front back : List Char} {c : Char}
    (h : IsPlain vendor.commentRules (front ++ c :: back)) (hc : isSeparator c = true) :
    IsPlain vendor.commentRules front ∧ IsPlain vendor.commentRules back := by
  have hcode := h.code
  have hsemicolon := h.noSemicolon
  have hend := h.noEndVar
  rw [isCode_append, isCode, Bool.and_eq_true, Bool.and_eq_true] at hcode
  simp only [List.mem_append, List.mem_cons, not_or] at hsemicolon
  rw [holdsEndVar_append _ _ (spec_of_isSeparator hc).1, Bool.or_eq_false_iff] at hend
  exact ⟨⟨none_of_isCode hcode.1, hsemicolon.1, hend.1⟩, hcode.2.2, hsemicolon.2.2, hend.2⟩

/-- So do several separators. -/
theorem IsPlain.of_append_gap {front back gap : List Char}
    (h : IsPlain vendor.commentRules (front ++ (gap ++ back)))
    (hgap : ∀ c ∈ gap, isSeparator c = true) (hne : gap ≠ []) :
    IsPlain vendor.commentRules front ∧ IsPlain vendor.commentRules back := by
  induction gap generalizing front with
  | nil => exact absurd rfl hne
  | cons c gap ih =>
      obtain ⟨hc, hgap⟩ := List.forall_mem_cons.mp hgap
      obtain ⟨hfront, hback⟩ := h.of_append hc
      rcases gap with - | ⟨d, gap⟩
      · exact ⟨hfront, hback⟩
      · exact ⟨hfront, (@ih [] hback hgap (List.cons_ne_nil d gap)).2⟩

/-! ## Parts of a declaration -/

/-- The characters at which a text may cease to be code. -/
def turns : List Char :=
  ['\n', '/', '(', '\x7b', '\'', '"']

theorem isCode_of_forall {kind : Char → Bool} (hkind : turns.any kind = false)
    {next : Option Char} {text : List Char} (h : ∀ c ∈ text, kind c = true) :
    isCode vendor.commentRules next text = true := by
  induction text with
  | nil => rfl
  | cons c rest ih =>
      obtain ⟨hc, hrest⟩ := List.forall_mem_cons.mp h
      have hnot : ∀ d ∈ turns, (c == d) = false := by
        intro d hd
        refine beq_false_of_ne fun heq => ?_
        exact List.any_eq_false.mp hkind d hd (heq ▸ hc)
      have hopen : vendor.commentRules.blockOpen.1 ∈ turns := by
        cases vendor <;> decide
      simp [isCode, isMark, isQuote, bne, ih hrest, hnot '\n' (by decide), hnot '/' (by decide),
        hnot _ hopen, hnot '\x7b' (by decide), hnot '\'' (by decide), hnot '"' (by decide)]

/-- The case of letters does not count. -/
theorem isCode_of_map_toUpper {next : Option Char} {text : List Char}
    (h : isCode vendor.commentRules (next.map Char.toUpper) (text.map Char.toUpper) = true) :
    isCode vendor.commentRules next text = true := by
  induction text with
  | nil => rfl
  | cons c rest ih =>
      have hupper : ∀ d : Char, d.toUpper = d → (c == d) = true → (c.toUpper == d) = true := by
        intro d hd heq
        rw [beq_iff_eq.mp heq, hd]
        exact beq_self_eq_true d
      -- Marks have no letters, so a mark stays one in upper case.
      have hmark : ∀ mark : Char × Char, mark.1.toUpper = mark.1 → mark.2.toUpper = mark.2 →
          isMark mark c (rest.head?.or next) = true →
          isMark mark c.toUpper ((rest.head?.or next).map Char.toUpper) = true := by
        intro mark hfirst hsecond hmark
        obtain ⟨hc, hnext⟩ := Bool.and_eq_true_iff.mp hmark
        refine Bool.and_eq_true_iff.mpr ⟨hupper mark.1 hfirst hc, ?_⟩
        rw [beq_iff_eq.mp hnext, Option.map_some, hsecond]
        exact beq_self_eq_true _
      have hopen : vendor.commentRules.blockOpen.1.toUpper = vendor.commentRules.blockOpen.1 ∧
          vendor.commentRules.blockOpen.2.toUpper = vendor.commentRules.blockOpen.2 := by
        cases vendor <;> decide
      rw [List.map_cons, isCode, List.head?_map, ← Option.map_or] at h
      simp only [Bool.and_eq_true, Bool.not_eq_true', bne_iff_ne, ← Bool.not_eq_true] at h
      obtain ⟨⟨⟨⟨⟨hline, hslashes⟩, hblock⟩, hbrace⟩, hquote⟩, hrest⟩ := h
      simp only [isCode, Bool.and_eq_true, Bool.not_eq_true', bne_iff_ne, ← Bool.not_eq_true]
      refine ⟨⟨⟨⟨⟨?_, fun h => hslashes (hmark _ rfl rfl h)⟩,
        fun h => hblock (hmark _ hopen.1 hopen.2 h)⟩, fun h => hbrace ?_⟩, fun h => hquote ?_⟩,
        ih hrest⟩
      · rintro rfl
        exact hline rfl
      · exact ⟨h.1, hupper _ rfl h.2⟩
      · simp only [isQuote, Bool.or_eq_true, Bool.and_eq_true] at h ⊢
        exact h.imp (hupper _ rfl) fun h => ⟨h.1, hupper _ rfl h.2⟩

/-- A text without the underscore of `END_VAR`. -/
theorem holdsEndVar_of_notMem {before : Option Char} {text : List Char}
    (h : '_' ∉ text.map Char.toUpper) : holdsEndVar before text = false := by
  induction text generalizing before with
  | nil => rfl
  | cons c rest ih =>
      have hnone : afterEndVar? before (c :: rest) = none := by
        refine if_neg fun heq => h ?_
        have hmem : '_' ∈ ((c :: rest).take endVar.length).map Char.toUpper := by
          rw [beq_iff_eq.mp heq]
          decide
        obtain ⟨d, hd, heq⟩ := List.mem_map.mp hmem
        exact List.mem_map.mpr ⟨d, List.take_subset _ _ hd, heq⟩
      rw [holdsEndVar, hnone, ih fun hmem => h (List.mem_cons_of_mem _ hmem)]
      rfl

/-- A word is only taken for `END_VAR` if it is that. -/
theorem holdsEndVar_word {text : List Char} (hword : ∀ c ∈ text, continuesName c = true)
    (hne : text.map Char.toUpper ≠ endVar) : holdsEndVar none text = false := by
  -- Behind its first character, a word does not begin.
  have hrest : ∀ c rest, continuesName c = true → (∀ d ∈ rest, continuesName d = true) →
      holdsEndVar (some c) rest = false := by
    intro c rest hc hrest
    induction rest generalizing c with
    | nil => rfl
    | cons d rest ih =>
        obtain ⟨hd, hrest⟩ := List.forall_mem_cons.mp hrest
        have hnone : afterEndVar? (some c) (d :: rest) = none := by
          rw [afterEndVar?]
          simp [hc]
        rw [holdsEndVar, hnone, ih d hd hrest]
        rfl
  cases text with
  | nil => rfl
  | cons c rest =>
      obtain ⟨hc, hafter⟩ := List.forall_mem_cons.mp hword
      have hnone : afterEndVar? none (c :: rest) = none := by
        by_cases htake : ((c :: rest).take endVar.length).map Char.toUpper = endVar
        · cases hdrop : (c :: rest).drop endVar.length with
          | nil =>
              rw [List.take_of_length_le (List.drop_eq_nil_iff.mp hdrop)] at htake
              exact absurd htake hne
          | cons d tail =>
              have hd : continuesName d = true :=
                hword d (List.drop_subset _ _ (hdrop ▸ List.mem_cons_self))
              rw [afterEndVar?, hdrop]
              simp [hd]
        · exact if_neg fun heq => htake (beq_iff_eq.mp heq)
      rw [holdsEndVar, hnone, hrest c rest hc hafter]
      rfl

/-- What a name may be made of. -/
def isNameChar (c : Char) : Bool :=
  c.isAlphanum || c == '_'

theorem ne_of_isNameChar {c d : Char} (hc : isNameChar c = true) (hd : isNameChar d = false) :
    c ≠ d := by
  rintro rfl
  rw [hc] at hd
  cases hd

theorem continuesName_of_isNameChar {c : Char} (h : isNameChar c = true) :
    continuesName c = true := by
  rcases Bool.or_eq_true_iff.mp h with halphanum | hunderscore
  · rw [continuesName, Text.isLetterOrNumeral_of_isAlphanum halphanum, Bool.true_or]
  · rw [continuesName, hunderscore, Bool.or_true]

theorem isWordChar_of_isNameChar {c : Char} (h : isNameChar c = true) :
    Text.isWordChar c = true := by
  rcases Bool.or_eq_true_iff.mp h with halphanum | hunderscore
  · exact Text.isWordChar_of_isAlphanum halphanum
  · rw [beq_iff_eq.mp hunderscore]
    decide +kernel

theorem isPlain_identifier {name : List Char} (h : Vendor.isIdentifier name = true)
    (hne : name.map Char.toUpper ≠ endVar) : IsPlain vendor.commentRules name := by
  have hchars : ∀ c ∈ name, isNameChar c = true := (Vendor.isAlphanum_of_isIdentifier h).2
  refine ⟨isCode_of_forall (by decide) hchars, fun hmem => ?_, holdsEndVar_word ?_ hne⟩
  · exact ne_of_isNameChar (hchars _ hmem) (by decide) rfl
  · exact fun c hc => continuesName_of_isNameChar (hchars c hc)

/-- An address in upper case is code, because behind its slash there is neither a slash nor
an asterisk. -/
theorem isCode_of_isMade {text : List Char} (h : Address.IsMade text) :
    isCode vendor.commentRules none text = true := by
  obtain ⟨front, back, rfl, hfront, rfl | ⟨tail, rfl, htail⟩⟩ := h
  · rw [List.append_nil]
    exact isCode_of_forall (by decide +kernel) hfront
  · have hmark : ∀ mark : Char × Char, Address.isUpperOrDigit mark.2 = false →
        isMark mark '/' (tail.head?.or none) = false := by
      intro mark hsecond
      refine Bool.and_eq_false_iff.mpr (.inr (beq_false_of_ne fun heq => ?_))
      rw [Option.or_none] at heq
      rw [htail _ (List.mem_of_head? heq)] at hsecond
      cases hsecond
    have hopen : Address.isUpperOrDigit vendor.commentRules.blockOpen.2 = false := by
      rw [blockOpen_snd]
      decide +kernel
    have hslash : isQuote vendor.commentRules '/' = false := by
      cases vendor <;> decide
    rw [isCode_append, isCode_of_forall (by decide +kernel) hfront, isCode,
      hmark _ (by decide +kernel), hmark _ hopen, hslash,
      isCode_of_forall (by decide +kernel) htail]
    simp

/-- What an address does not hold. -/
theorem notMem_address {address : String} {element : Address}
    (h : Address.parse vendor address = .ok element)
    (hblank : ∀ c ∈ address.toList, Text.isBlank c = false) {d : Char}
    (hd : Address.isAddressChar d = false) (hslash : d ≠ '/') :
    d ∉ address.toList.map Char.toUpper := by
  obtain ⟨⟨front, back, heq, hfront, hback⟩, -⟩ := Address.isMade_of_parse h hblank
  intro hmem
  rw [heq] at hmem
  rcases List.mem_append.mp hmem with hmem | hmem
  · rw [hfront d hmem] at hd
    cases hd
  · rcases hback with rfl | ⟨tail, rfl, htail⟩
    · cases hmem
    · rcases List.mem_cons.mp hmem with rfl | hmem
      · exact hslash rfl
      · rw [Address.isAddressChar_of_isUpperOrDigit (htail d hmem)] at hd
        cases hd

theorem isPlain_address {address : String} {element : Address}
    (h : Address.parse vendor address = .ok element)
    (hblank : ∀ c ∈ address.toList, Text.isBlank c = false) :
    IsPlain vendor.commentRules address.toList := by
  obtain ⟨hmade, -⟩ := Address.isMade_of_parse h hblank
  refine ⟨isCode_of_map_toUpper (isCode_of_isMade hmade), fun hmem => ?_,
    holdsEndVar_of_notMem (notMem_address h hblank (by decide +kernel) (by decide))⟩
  exact notMem_address h hblank (by decide +kernel) (by decide) (List.mem_map.mpr ⟨';', hmem, rfl⟩)

end PlcTags.Source
