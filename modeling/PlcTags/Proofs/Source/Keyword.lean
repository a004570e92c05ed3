import Mathlib.Data.List.Forall2
import PlcTags.Proofs.Source.Reading
import PlcTags.Proofs.Source.Unread

/-!
# The keywords of blocks

A text opens a block exactly if one of its words is the keyword of a block
(`isSome_find?_iff`).  The search for it does not know of quotes: a word between quotes counts
like any other.  So nothing is found in a source without a keyword outside of its quotes
exactly if there is none between its quotes either (`extract_eq_unopened_iff`), and a literal
that holds one takes the lines behind it for declarations (`extract_startMessage`).

Quotes do not cut words in two, because no quote belongs to a word; this is why the keywords of
a text are those outside of its quotes and those between them (`holdsKeyword_iff`).
-/

namespace PlcTags.Source

/-! ## Keywords -/

/-- The keyword of a block, in any case. -/
def IsKeyword (word : List Char) : Prop :=
  ∃ kind : Block.Kind, List.Forall₂ (fun letter c => Block.isCaseOf letter c = true)
    ("VAR".toList ++ kind.ending) word

/-- One of the words of a text is a keyword. -/
def HoldsKeyword (text : List Char) : Prop :=
  ∃ word ∈ text.splitOnP fun c => !Text.isWordChar c, IsKeyword word

theorem not_isKeyword_nil : ¬ IsKeyword [] := by
  rintro ⟨kind, h⟩
  cases h

/-- What a letter of a keyword is spelled as belongs to a word. -/
theorem isWordChar_of_isCaseOf {letter c : Char} (hletter : isNameChar letter = true)
    (h : Block.isCaseOf letter c = true) : Text.isWordChar c = true := by
  have hsame : ∀ d : Char, Text.isWordChar d = true → (c.toNat == d.toNat) = true →
      Text.isWordChar c = true :=
    fun d hd heq => Char.toNat_inj.mp (beq_iff_eq.mp heq) ▸ hd
  simp only [Block.isCaseOf, Bool.or_eq_true, Bool.and_eq_true] at h
  obtain (hupper | ⟨-, hlong⟩) | ⟨-, hkelvin⟩ := h
  · rcases toUpper_eq_or_isAlphanum c with heq | halphanum
    · rw [heq] at hupper
      exact beq_iff_eq.mp hupper ▸ isWordChar_of_isNameChar hletter
    · exact Text.isWordChar_of_isAlphanum halphanum
  · exact hsame 'ſ' (by decide +kernel) hlong
  · exact hsame '\u212A' (by decide +kernel) hkelvin

theorem IsKeyword.isWordChar {word : List Char} (h : IsKeyword word) :
    ∀ c ∈ word, Text.isWordChar c = true := by
  obtain ⟨kind, h⟩ := h
  have hletters : ∀ letter ∈ "VAR".toList ++ kind.ending, isNameChar letter = true :=
    List.all_eq_true.mp (by cases kind <;> decide +kernel)
  generalize "VAR".toList ++ kind.ending = letters at h hletters
  induction h with
  | nil => exact List.forall_mem_nil _
  | cons hc _ ih =>
      obtain ⟨hletter, hletters⟩ := List.forall_mem_cons.mp hletters
      exact List.forall_mem_cons.mpr ⟨isWordChar_of_isCaseOf hletter hc, ih hletters⟩

/-! ## The words of a text -/

variable {text front back : List Char} {c : Char}

/-- A character that belongs to no word ends the word in front of it. -/
theorem holdsKeyword_append (hc : Text.isWordChar c = false) :
    HoldsKeyword (front ++ c :: back) ↔ HoldsKeyword front ∨ HoldsKeyword back := by
  have hsplit : (front ++ c :: back).splitOnP (fun c => !Text.isWordChar c) =
      front.splitOnP (fun c => !Text.isWordChar c) ++ back.splitOnP fun c => !Text.isWordChar c :=
    List.splitOnP_append_cons front back (by simp [hc])
  simp only [HoldsKeyword, hsplit, List.mem_append, or_and_right, exists_or]

theorem holdsKeyword_word (h : ∀ c ∈ text, Text.isWordChar c = true) :
    HoldsKeyword text ↔ IsKeyword text := by
  have hsplit : text.splitOnP (fun c => !Text.isWordChar c) = [text] :=
    List.splitOnP_eq_singleton fun c hc => by simp [h c hc]
  simp only [HoldsKeyword, hsplit, List.mem_singleton, exists_eq_left]

theorem not_holdsKeyword_nil : ¬ HoldsKeyword [] :=
  fun h => not_isKeyword_nil ((holdsKeyword_word (List.forall_mem_nil _)).mp h)

theorem holdsKeyword_cons (hc : Text.isWordChar c = false) :
    HoldsKeyword (c :: text) ↔ HoldsKeyword text := by
  rw [← List.nil_append (c :: text), holdsKeyword_append hc]
  exact or_iff_right not_holdsKeyword_nil

/-- The first word, and those behind it. -/
theorem holdsKeyword_iff_or : HoldsKeyword text ↔
    IsKeyword (text.takeWhile Text.isWordChar) ∨
      HoldsKeyword (text.dropWhile Text.isWordChar) := by
  have hword : ∀ c ∈ text.takeWhile Text.isWordChar, Text.isWordChar c = true :=
    fun c hc => List.mem_takeWhile_imp hc
  have hhead := List.head?_dropWhile_not Text.isWordChar text
  rw [← holdsKeyword_word hword]
  conv_lhs => rw [← List.takeWhile_append_dropWhile (p := Text.isWordChar) (l := text)]
  cases hrest : text.dropWhile Text.isWordChar with
  | nil => rw [List.append_nil, or_iff_left not_holdsKeyword_nil]
  | cons c rest =>
      rw [hrest] at hhead
      have hc : Text.isWordChar c = false := by simpa using hhead
      rw [holdsKeyword_append hc, holdsKeyword_cons hc]

/-! ## The search for a keyword -/

namespace Block

theorem keyword?_eq_some_iff {letters written rest : List Char} :
    keyword? letters text = some (written, rest) ↔
      List.Forall₂ (fun letter c => isCaseOf letter c = true) letters written ∧
        text = written ++ rest := by
  induction letters generalizing text written with
  | nil =>
      rw [keyword?, Option.some.injEq, Prod.mk.injEq, List.forall₂_nil_left_iff]
      constructor
      · rintro ⟨rfl, rfl⟩
        exact ⟨rfl, rfl⟩
      · rintro ⟨rfl, rfl⟩
        exact ⟨rfl, rfl⟩
  | cons letter letters ih =>
      cases text with
      | nil =>
          refine iff_of_false (by simp [keyword?]) ?_
          rintro ⟨hword, heq⟩
          obtain ⟨d, word, -, -, rfl⟩ := List.forall₂_cons_left_iff.mp hword
          cases heq
      | cons c text =>
          rw [keyword?]
          split
          · rename_i hc
            constructor
            · intro h
              obtain ⟨⟨word, tail⟩, hword, heq⟩ := Option.map_eq_some_iff.mp h
              obtain ⟨rfl, rfl⟩ := Prod.mk.inj heq
              obtain ⟨hletters, rfl⟩ := ih.mp hword
              exact ⟨.cons hc hletters, rfl⟩
            · rintro ⟨hword, heq⟩
              obtain ⟨d, word, -, hletters, rfl⟩ := List.forall₂_cons_left_iff.mp hword
              obtain ⟨rfl, rfl⟩ := List.cons.inj heq
              exact Option.map_eq_some_iff.mpr ⟨(word, rest), ih.mpr ⟨hletters, rfl⟩, rfl⟩
          · rename_i hc
            refine iff_of_false (by simp) ?_
            rintro ⟨hword, heq⟩
            obtain ⟨d, word, hd, -, rfl⟩ := List.forall₂_cons_left_iff.mp hword
            exact hc ((List.cons.inj heq).1 ▸ hd)

theorem wholeKeyword?_eq_some {letters written rest : List Char}
    (h : List.Forall₂ (fun letter c => isCaseOf letter c = true) letters written)
    (hends : endsWord rest = true) :
    wholeKeyword? letters (written ++ rest) = some (written, rest) := by
  simp only [wholeKeyword?, keyword?_eq_some_iff.mpr ⟨h, rfl⟩, hends, if_true]

theorem endsWord_dropWhile (text : List Char) :
    endsWord (text.dropWhile Text.isWordChar) = true := by
  have hhead := List.head?_dropWhile_not Text.isWordChar text
  cases hrest : text.dropWhile Text.isWordChar with
  | nil => rfl
  | cons c rest =>
      rw [hrest] at hhead
      simpa [endsWord] using hhead

/-- **A keyword stands here** exactly if the word that begins here is one. -/
theorem isSome_opening?_iff :
    (opening? text).isSome = true ↔ IsKeyword (text.takeWhile Text.isWordChar) := by
  constructor
  · intro h
    obtain ⟨⟨ending, rest⟩, h⟩ := Option.isSome_iff_exists.mp h
    unfold opening? at h
    split at h
    · rename_i stem after hstem
      obtain ⟨kind, -, hwhole⟩ := List.exists_of_findSome?_eq_some h
      unfold wholeKeyword? at hwhole
      split at hwhole
      · rename_i written behind hending
        split at hwhole
        · rename_i hends
          obtain ⟨hfirst, rfl⟩ := keyword?_eq_some_iff.mp hstem
          obtain ⟨hsecond, rfl⟩ := keyword?_eq_some_iff.mp hending
          have hkeyword : IsKeyword (stem ++ written) := ⟨kind, List.rel_append hfirst hsecond⟩
          -- The word ends behind the keyword, because no character of a word follows it.
          have hword : (stem ++ written ++ behind).takeWhile Text.isWordChar = stem ++ written := by
            rw [List.takeWhile_append_of_pos hkeyword.isWordChar]
            cases behind with
            | nil => simp
            | cons c behind =>
                have hc : ¬ Text.isWordChar c = true := by simpa [endsWord] using hends
                rw [List.takeWhile_cons_of_neg hc, List.append_nil]
          rw [← List.append_assoc, hword]
          exact hkeyword
        · cases hwhole
      · cases hwhole
    · cases h
  · rintro ⟨kind, h⟩
    -- The first three letters of the word are the stem, and the rest is the ending.
    set word := text.takeWhile Text.isWordChar with hword
    have hvar := List.forall₂_take "VAR".toList.length h
    have hending := List.forall₂_drop "VAR".toList.length h
    rw [List.take_left] at hvar
    rw [List.drop_left] at hending
    have htext : text = word.take "VAR".toList.length ++
        (word.drop "VAR".toList.length ++ text.dropWhile Text.isWordChar) := by
      rw [← List.append_assoc, List.take_append_drop, hword, List.takeWhile_append_dropWhile]
    have hwhole := wholeKeyword?_eq_some hending (endsWord_dropWhile text)
    rw [opening?, keyword?_eq_some_iff.mpr ⟨hvar, htext⟩]
    refine List.findSome?_isSome_iff.mpr ⟨kind, ?_, ?_⟩
    · cases kind <;> decide
    · rw [hwhole]
      rfl

/-- **The search finds a block** exactly if one of the words is a keyword.  A word that the
character in front of the text belongs to does not count. -/
theorem isSome_find?_iff (before : Option Char) :
    (find? before text).isSome = true ↔ HoldsKeyword
      (if before.any Text.isWordChar then text.dropWhile Text.isWordChar else text) := by
  induction text generalizing before with
  | nil =>
      refine iff_of_false Bool.false_ne_true ?_
      split <;> exact not_holdsKeyword_nil
  | cons c rest ih =>
      have hbehind : (find? (some c) rest).isSome = true ↔
          HoldsKeyword ((c :: rest).dropWhile Text.isWordChar) := by
        rw [ih, Option.any_some]
        cases hc : Text.isWordChar c with
        | true => rw [if_pos rfl, List.dropWhile_cons_of_pos hc]
        | false =>
            rw [if_neg Bool.false_ne_true, List.dropWhile_cons_of_neg (Bool.eq_false_iff.mp hc),
              holdsKeyword_cons hc]
      rw [find?]
      cases before.any Text.isWordChar with
      | true => exact hbehind
      | false =>
          simp only [Bool.false_eq_true, if_false]
          rw [holdsKeyword_iff_or, ← isSome_opening?_iff]
          cases opening? (c :: rest) with
          | none => exact hbehind.trans (or_iff_right Bool.false_ne_true).symm
          | some found => exact iff_of_true rfl (.inl rfl)

theorem find?_eq_none_iff : find? none text = none ↔ ¬ HoldsKeyword text := by
  rw [← Option.not_isSome_iff_eq_none]
  exact not_congr (isSome_find?_iff none)

end Block

/-- A keyword is what the search takes for one. -/
theorem isKeyword_iff {word : List Char} : IsKeyword word ↔
    word.all Text.isWordChar = true ∧ (Block.opening? word).isSome = true := by
  rw [Block.isSome_opening?_iff, List.all_eq_true]
  constructor
  · intro h
    rw [List.takeWhile_eq_self_iff.mpr h.isWordChar]
    exact ⟨h.isWordChar, h⟩
  · rintro ⟨hword, h⟩
    rwa [List.takeWhile_eq_self_iff.mpr hword] at h

instance (word : List Char) : Decidable (IsKeyword word) :=
  decidable_of_iff _ isKeyword_iff.symm

instance (text : List Char) : Decidable (HoldsKeyword text) :=
  List.decidableBEx _ _

example : HoldsKeyword "(Var_Input)".toList ∧ ¬ HoldsKeyword "VAR_IN, MY_VAR".toList := by
  decide +kernel

/-! ## Outside of quotes, and between them -/

/-- What the next character belongs to, in a text without comments: `mode` is `.code` outside of
quotes. -/
def quoteBehind (rules : CommentRules) (mode : Mode) (c : Char) : Mode :=
  if c = '\n' then .code
  else match mode with
    | .quoted quote escaped => afterQuoted quote escaped c
    | _ => if isQuote rules c then .quoted c false else .code

def Mode.isQuoted : Mode → Bool
  | quoted .. => true
  | code | lineComment | blockComment | braces | mark _ => false

/-- A text with blanks in place of what does not stand between quotes, or of what does.  The
quote in front counts as outside, and the quote behind as between. -/
def keptFrom (rules : CommentRules) (between : Bool) (mode : Mode) : List Char → List Char
  | [] => []
  | c :: rest =>
    (if c = '\n' ∨ mode.isQuoted = between then c else ' ') ::
      keptFrom rules between (quoteBehind rules mode c) rest

/-- What stands outside of the quotes of a source. -/
def outside (rules : CommentRules) (source : String) : List Char :=
  keptFrom rules false .code source.toList

/-- What stands between the quotes of a source. -/
def inside (rules : CommentRules) (source : String) : List Char :=
  keptFrom rules true .code source.toList

/-- Whether neither comments nor braces begin outside of the quotes of a text. -/
def isUncommented (rules : CommentRules) (mode : Mode) : List Char → Bool
  | [] => true
  | c :: rest =>
    (mode.isQuoted || !(isMark ('/', '/') c rest.head? || isMark rules.blockOpen c rest.head? ||
        (rules.braces && c == '\x7b'))) &&
      isUncommented rules (quoteBehind rules mode c) rest

example : outside Vendor.siemens.commentRules "\"a\" := 'b'; // c" =
    "\"   := '  ; // c".toList := by
  decide +kernel

example : inside Vendor.siemens.commentRules "\"a\" := 'b'; // c" =
    " a\"     b'      ".toList := by
  decide +kernel

variable {rules : CommentRules} {mode : Mode}

/-- Code, or between two quotes, which belong to no word. -/
def Mode.IsQuoting : Mode → Prop
  | code => True
  | quoted quote _ => Text.isWordChar quote = false
  | lineComment | blockComment | braces | mark _ => False

theorem isWordChar_of_isQuote (h : isQuote rules c = true) : Text.isWordChar c = false := by
  simp only [isQuote, Bool.or_eq_true, Bool.and_eq_true, beq_iff_eq] at h
  obtain rfl | ⟨-, rfl⟩ := h <;> decide +kernel

theorem quoteBehind_code : quoteBehind rules .code c =
    if c ≠ '\n' ∧ isQuote rules c = true then .quoted c false else .code := by
  unfold quoteBehind
  split <;> simp_all

theorem Mode.IsQuoting.quoteBehind (h : mode.IsQuoting) (rules : CommentRules) (c : Char) :
    (quoteBehind rules mode c).IsQuoting := by
  cases mode with
  | code =>
      rw [quoteBehind_code]
      split
      · rename_i hquote
        exact isWordChar_of_isQuote hquote.2
      · trivial
  | quoted quote escaped =>
      unfold Source.quoteBehind
      split
      · trivial
      · dsimp only
        unfold afterQuoted
        split
        · exact h
        · split
          · exact h
          · split
            · trivial
            · exact h
  | _ => exact h.elim

/-- Within a word the quotes neither begin nor end. -/
theorem isQuoted_quoteBehind (h : mode.IsQuoting) (hc : Text.isWordChar c = true) :
    (quoteBehind rules mode c).isQuoted = mode.isQuoted := by
  have hne : ∀ d, Text.isWordChar d = false → c ≠ d := by
    rintro d hd rfl
    rw [hc] at hd
    cases hd
  have hline : c ≠ '\n' := hne '\n' (by decide +kernel)
  cases mode with
  | code =>
      rw [quoteBehind_code, if_neg]
      rintro ⟨-, hquote⟩
      exact hne c (isWordChar_of_isQuote hquote) rfl
  | quoted quote escaped =>
      have hquote : (c == quote) = false := beq_false_of_ne (hne quote h)
      rw [quoteBehind, if_neg hline]
      unfold afterQuoted
      rw [hquote]
      split
      · rfl
      · split <;> rfl
  | _ => exact h.elim

/-- The induction carries the word that has begun, in front of the texts that it belongs to. -/
theorem holdsKeyword_keptFrom {word : List Char} (hword : ∀ c ∈ word, Text.isWordChar c = true)
    (h : mode.IsQuoting) :
    HoldsKeyword (word ++ text) ↔
      HoldsKeyword (word ++ keptFrom rules mode.isQuoted mode text) ∨
        HoldsKeyword (keptFrom rules (!mode.isQuoted) mode text) := by
  induction text generalizing mode word with
  | nil =>
      simp only [keptFrom, or_iff_left not_holdsKeyword_nil]
  | cons c rest ih =>
      -- The text of the other kind is blank here, so no word of it goes on.
      have hother : Text.isWordChar (if c = '\n' ∨ mode.isQuoted = !mode.isQuoted then c else ' ')
          = false := by
        split
        · rename_i hline
          obtain rfl | hne := hline
          · decide +kernel
          · simp at hne
        · decide +kernel
      rw [keptFrom, keptFrom, if_pos (.inr rfl), holdsKeyword_cons hother]
      cases hc : Text.isWordChar c with
      | true =>
          have hlonger : ∀ d ∈ word ++ [c], Text.isWordChar d = true :=
            List.forall_mem_append.mpr ⟨hword, List.forall_mem_singleton.mpr hc⟩
          have hrest := ih hlonger (h.quoteBehind rules c)
          rwa [isQuoted_quoteBehind h hc, List.append_assoc, List.append_assoc] at hrest
      | false =>
          have hrest := ih (List.forall_mem_nil _) (h.quoteBehind rules c)
          rw [List.nil_append, List.nil_append] at hrest
          rw [holdsKeyword_append hc, holdsKeyword_append hc, hrest, or_assoc]
          refine or_congr_right ?_
          cases (quoteBehind rules mode c).isQuoted <;> cases mode.isQuoted <;>
            first | exact Iff.rfl | exact Or.comm

/-- **The keywords of a source** stand outside of its quotes or between them. -/
theorem holdsKeyword_iff (rules : CommentRules) (source : String) :
    HoldsKeyword source.toList ↔
      HoldsKeyword (outside rules source) ∨ HoldsKeyword (inside rules source) := by
  have hcode : Mode.code.IsQuoting := trivial
  exact holdsKeyword_keptFrom (List.forall_mem_nil _) hcode

/-! ## Sources without comments -/

/-- Without comments, every character of a line is passed on. -/
theorem readChar_of_isUncommented (h : mode.IsQuoting)
    (hcode : isUncommented rules mode (c :: text) = true) (hline : c ≠ '\n') (draft : Draft) :
    readChar rules mode draft c text.head? = (quoteBehind rules mode c, draft.addCode c) := by
  cases mode with
  | code =>
      simp only [isUncommented, Mode.isQuoted, Bool.false_or, Bool.and_eq_true, Bool.not_eq_true',
        Bool.or_eq_false_iff] at hcode
      obtain ⟨⟨⟨hslashes, hopen⟩, hbrace⟩, -⟩ := hcode
      have hread : readChar rules .code draft c text.head? =
          if isQuote rules c then (.quoted c false, draft.addCode c)
          else (.code, draft.addCode c) := by
        simp only [readChar, readCode, hslashes, hopen, hbrace, Bool.false_eq_true, if_false]
        rfl
      rw [hread, quoteBehind_code]
      cases isQuote rules c <;> simp [hline]
  | quoted quote escaped => rw [readChar, quoteBehind, if_neg hline]
  | _ => exact h.elim

theorem code_finish (draft : Draft) : draft.finish.code.toList = draft.code.reverse :=
  String.toList_ofList

/-- **One of the lines holds a keyword** exactly if the source does. -/
theorem exists_holdsKeyword_linesFrom (h : mode.IsQuoting)
    (hcode : isUncommented rules mode text = true) (draft : Draft) :
    (∃ line ∈ linesFrom rules mode draft text, HoldsKeyword line.code.toList) ↔
      HoldsKeyword (draft.code.reverse ++ text) := by
  induction text generalizing mode draft with
  | nil =>
      rw [linesFrom, List.append_nil, ← code_finish]
      simp only [List.mem_singleton, exists_eq_left]
  | cons c rest ih =>
      have htail : isUncommented rules (quoteBehind rules mode c) rest = true :=
        (Bool.and_eq_true_iff.mp hcode).2
      have hrest := ih (h.quoteBehind rules c) htail
      by_cases hline : c = '\n'
      · subst hline
        have hmode : mode.atLineBreak = quoteBehind rules mode '\n' := by
          unfold quoteBehind
          rw [if_pos rfl]
          cases mode with
          | code => rfl
          | quoted quote escaped => rfl
          | _ => exact h.elim
        have hstart := hrest (Draft.start (draft.number + 1))
        rw [linesFrom, if_pos rfl, holdsKeyword_append (by decide +kernel),
          List.exists_mem_cons_iff, code_finish, hmode, hstart]
        rfl
      · have hnext := hrest (draft.addCode c)
        rw [linesFrom, if_neg hline]
        simp only [readChar_of_isUncommented h hcode hline]
        rw [hnext, Draft.addCode, List.reverse_cons, List.append_assoc]
        rfl

/-! ## Sources in which nothing opens -/

theorem isWordChar_of_isBlank (h : Text.isBlank c = true) : Text.isWordChar c = false := by
  have hall : ∀ c ∈ blanks, Text.isWordChar c = false :=
    List.all_iff_forall_prop.mp (by decide +kernel)
  exact hall c (mem_blanks h)

theorem not_holdsKeyword_of_allBlank (h : Text.allBlank text = true) : ¬ HoldsKeyword text := by
  induction text with
  | nil => exact not_holdsKeyword_nil
  | cons c rest ih =>
      obtain ⟨hc, hrest⟩ := Bool.and_eq_true_iff.mp h
      rw [holdsKeyword_cons (isWordChar_of_isBlank hc)]
      exact ih hrest

namespace Reader

variable {reader : Reader} {lines : List Line}

/-- A line without a keyword is passed over. -/
theorem readLine_of_not_holdsKeyword (h : reader.IsSettled) (hblock : reader.block = none)
    {line : Line} (hline : ¬ HoldsKeyword line.code.toList) :
    reader.readLine rules line = reader := by
  rw [readLine, h.resume, readRest_outside hblock (Block.find?_eq_none_iff.mpr hline)]

/-- A line with a keyword opens a block. -/
theorem sawBlock_readLine (h : reader.IsSettled) (hblock : reader.block = none)
    {line : Line} (hline : HoldsKeyword line.code.toList) :
    (reader.readLine rules line).sawBlock = true := by
  have hfind : (Block.find? none line.code.toList).isSome = true :=
    (Block.isSome_find?_iff none).mpr hline
  obtain ⟨⟨block, rest⟩, hfind⟩ := Option.isSome_iff_exists.mp hfind
  rw [readLine, h.resume, readRest_opening hblock hfind]
  exact (grows_readRest _ rules line rest).sawBlock rfl

theorem readLines_of_not_holdsKeyword (h : reader.IsSettled) (hblock : reader.block = none)
    (hlines : ∀ line ∈ lines, ¬ HoldsKeyword line.code.toList) :
    lines.foldl (readLine rules) reader = reader := by
  induction lines with
  | nil => rfl
  | cons line lines ih =>
      obtain ⟨hline, hlines⟩ := List.forall_mem_cons.mp hlines
      rw [List.foldl_cons, readLine_of_not_holdsKeyword h hblock hline]
      exact ih hlines

theorem sawBlock_readLines (h : reader.IsSettled) (hblock : reader.block = none)
    (hlines : ∃ line ∈ lines, HoldsKeyword line.code.toList) :
    (lines.foldl (readLine rules) reader).sawBlock = true := by
  induction lines with
  | nil => exact absurd hlines (by simp)
  | cons line lines ih =>
      rw [List.foldl_cons]
      by_cases hline : HoldsKeyword line.code.toList
      · exact (grows_readLines _ rules lines).sawBlock (sawBlock_readLine h hblock hline)
      · rw [readLine_of_not_holdsKeyword h hblock hline]
        obtain hfirst | hrest := (List.exists_mem_cons_iff ..).mp hlines
        · exact absurd hfirst hline
        · exact ih hrest

end Reader

/-- What is found in a source in which no block opens: nothing, and that it is so is reported unless
the source is blank. -/
def unopened (vendor : Vendor) (source : String) : Extraction where
  vendor := vendor
  entries := []
  diagnostics :=
    if Text.isAllBlank source then []
    else [{ severity := .error, code := .unparseable,
            message := "no VAR ... END_VAR declaration block found" }]

theorem extract_of_not_holdsKeyword {vendor : Vendor} {source : String}
    (h : ∀ line ∈ lines vendor.commentRules source, ¬ HoldsKeyword line.code.toList) :
    extract vendor source = unopened vendor source := by
  rw [extract, unopened, Reader.readLines_of_not_holdsKeyword Reader.isSettled_start rfl h,
    Reader.finish]
  dsimp only
  cases Text.isAllBlank source <;> rfl

/-- Where a block opens, all problems have a line, and the source is not blank. -/
theorem extract_ne_unopened {vendor : Vendor} {source : String}
    (hsource : Text.isAllBlank source = false)
    (h : ∃ line ∈ lines vendor.commentRules source, HoldsKeyword line.code.toList) :
    extract vendor source ≠ unopened vendor source := by
  intro heq
  have hsaw : ((lines vendor.commentRules source).foldl (Reader.readLine vendor.commentRules)
      {}).sawBlock = true := Reader.sawBlock_readLines Reader.isSettled_start rfl h
  have hgrows := (Reader.grows_readLines {} vendor.commentRules _).trans
    (Reader.grows_finish _ vendor.commentRules hsaw (lastLine (lines vendor.commentRules source))
      (Text.isAllBlank source))
  obtain ⟨more, hmore, hlines⟩ := hgrows.diagnostics
  have hdiagnostics := congrArg Extraction.diagnostics heq
  rw [unopened, hsource] at hdiagnostics
  have hmore : more = _ := hmore.symm.trans hdiagnostics
  rw [hmore] at hlines
  exact hlines _ List.mem_cons_self rfl

/-- **Quotes do not keep a keyword from opening a block.**  If no keyword stands outside of its
quotes, a source without comments has no block exactly if none stands between them. -/
theorem extract_eq_unopened_iff {vendor : Vendor} {source : String}
    (hcode : isUncommented vendor.commentRules .code source.toList = true)
    (houtside : ¬ HoldsKeyword (outside vendor.commentRules source)) :
    extract vendor source = unopened vendor source ↔
      ¬ HoldsKeyword (inside vendor.commentRules source) := by
  have hmode : Mode.code.IsQuoting := trivial
  have hlines : (∃ line ∈ lines vendor.commentRules source, HoldsKeyword line.code.toList) ↔
      HoldsKeyword source.toList := exists_holdsKeyword_linesFrom hmode hcode (Draft.start 1)
  have hsource := holdsKeyword_iff vendor.commentRules source
  rw [or_iff_right houtside] at hsource
  rw [← hsource, ← hlines]
  constructor
  · intro heq hopens
    have hblank : Text.isAllBlank source = false := by
      refine Bool.eq_false_iff.mpr fun hblank => ?_
      exact not_holdsKeyword_of_allBlank hblank (hlines.mp hopens)
    exact extract_ne_unopened hblank hopens heq
  · intro hnone
    exact extract_of_not_holdsKeyword fun line hline hkeyword => hnone ⟨line, hline, hkeyword⟩

/-- Where the literals hold no keyword, nothing is found: the keyword in the quoted name is part of
a longer word. -/
theorem extract_eq_unopened_motor :
    isUncommented Vendor.siemens.commentRules .code "\"MY_VAR\" := 'it$'s on';".toList = true ∧
      ¬ HoldsKeyword (outside Vendor.siemens.commentRules "\"MY_VAR\" := 'it$'s on';") ∧
      extract .siemens "\"MY_VAR\" := 'it$'s on';" =
        unopened .siemens "\"MY_VAR\" := 'it$'s on';" :=
  ⟨by decide +kernel, by decide +kernel,
    (extract_eq_unopened_iff (by decide +kernel) (by decide +kernel)).mpr (by decide +kernel)⟩

/-- A message that opens a block: what stands behind the keyword is taken for a declaration. -/
theorem extract_startMessage :
    isUncommented Vendor.beckhoff.commentRules .code "Msg := 'VAR x';".toList = true ∧
      ¬ HoldsKeyword (outside Vendor.beckhoff.commentRules "Msg := 'VAR x';") ∧
      extract .beckhoff "Msg := 'VAR x';" =
        ⟨.beckhoff, [.unread 1 "x';" .blockEnded],
          [{ severity := .error, code := .partialDeclaration, line := some 1,
             message := "cannot read declaration 'x';': declaration block ended early" },
           { severity := .error, code := .unparseable, line := some 1,
             message := "declaration block is not closed by END_VAR" }]⟩ := by
  have hentries : (extract .beckhoff "Msg := 'VAR x';").entries =
      [.unread 1 "x';" .blockEnded] := by
    decide +kernel
  have hdiagnostics : (extract .beckhoff "Msg := 'VAR x';").diagnostics =
      [{ severity := .error, code := .partialDeclaration, line := some 1,
         message := "cannot read declaration 'x';': declaration block ended early" },
       { severity := .error, code := .unparseable, line := some 1,
         message := "declaration block is not closed by END_VAR" }] := by
    decide +kernel
  exact ⟨by decide +kernel, by decide +kernel,
    congr (congrArg (Extraction.mk .beckhoff) hentries) hdiagnostics⟩

end PlcTags.Source
