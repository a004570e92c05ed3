import PlcTags.Proofs.Source.Code
import PlcTags.Proofs.Source.Unread

/-!
# Lines and their numbers

A line break ends a line and starts the next (`linesFrom_append_newline`), so the lines of a text
are numbered from 1, one more than there are line breaks (`map_number_linesFrom`).

Whatever is found in a text is found in one of its lines with code, and in the order of the lines
(`isLocated_extract`).  The reader keeps the line on which the open statement began; this line has
code, and it does not come before anything that has been found (`Reader.IsLocated`).
-/

namespace PlcTags.Source

/-! ## Modes and line breaks -/

/-- What the character behind `c` belongs to. -/
def modeBehind (rules : CommentRules) (mode : Mode) (c : Char) (next : Option Char) : Mode :=
  (readChar rules mode (.start 1) c next).1

/-- What the character behind a text belongs to. -/
def modeAfter (rules : CommentRules) (mode : Mode) (next : Option Char) : List Char → Mode
  | [] => mode
  | c :: rest =>
    modeAfter rules (if c = '\n' then mode.atLineBreak
      else modeBehind rules mode c (rest.head?.or next)) next rest

/-- The mode does not depend on what has been read of the line. -/
theorem fst_readChar {rules : CommentRules} {mode : Mode} {c : Char} {next : Option Char}
    (draft : Draft) :
    (readChar rules mode draft c next).1 = modeBehind rules mode c next := by
  unfold modeBehind readChar
  cases mode with
  | code =>
      dsimp only
      unfold readCode
      split
      · rfl
      · split
        · rfl
        · split
          · rfl
          · split <;> rfl
  | blockComment => dsimp only; split <;> rfl
  | _ => rfl

/-- A character belongs to the line that is being read, and adds to its code. -/
theorem exists_readChar (rules : CommentRules) (mode : Mode) (draft : Draft) (c : Char)
    (next : Option Char) :
    (readChar rules mode draft c next).2.number = draft.number ∧
      ∃ code, (readChar rules mode draft c next).2.code = code ++ draft.code := by
  have hcomment : ∀ draft : Draft, ∀ d : Char, (draft.addComment d).number = draft.number ∧
      (draft.addComment d).code = draft.code := by
    intro draft d
    unfold Draft.addComment
    split <;> exact ⟨rfl, rfl⟩
  unfold readChar
  split
  · unfold readCode
    split
    · exact ⟨rfl, [], rfl⟩
    · split
      · exact ⟨(hcomment _ _).1, [' '], congrArg (' ' :: ·) (hcomment _ _).2⟩
      · split
        · exact ⟨rfl, [' '], rfl⟩
        · split <;> exact ⟨rfl, [c], rfl⟩
  · exact ⟨(hcomment _ _).1, [], (hcomment _ _).2⟩
  · split <;> exact ⟨(hcomment _ _).1, [], (hcomment _ _).2⟩
  · exact ⟨rfl, [], rfl⟩
  · exact ⟨rfl, [c], rfl⟩
  · exact ⟨rfl, [], rfl⟩

/-- A line break completes no mark. -/
theorem readChar_newline (vendor : Vendor) (mode : Mode) (draft : Draft) (c : Char) :
    readChar vendor.commentRules mode draft c (some '\n') =
      readChar vendor.commentRules mode draft c none := by
  cases vendor <;> cases mode <;> simp [readChar, readCode, isMark, Vendor.commentRules]

/-- **A line break ends a line**, and the text behind it is read from the next line on. -/
theorem linesFrom_append_newline (vendor : Vendor) (mode : Mode) (draft : Draft)
    (front back : List Char) :
    linesFrom vendor.commentRules mode draft (front ++ '\n' :: back) =
      linesFrom vendor.commentRules mode draft front ++
        linesFrom vendor.commentRules
          (modeAfter vendor.commentRules mode none front).atLineBreak
          (.start (draft.number + front.count '\n' + 1)) back := by
  induction front generalizing mode draft with
  | nil =>
      have hbreak : linesFrom vendor.commentRules mode draft ('\n' :: back) = draft.finish ::
          linesFrom vendor.commentRules mode.atLineBreak (.start (draft.number + 1)) back := by
        rw [linesFrom, if_pos rfl]
      exact hbreak
  | cons c rest ih =>
      by_cases hc : c = '\n'
      · subst hc
        have hnumber : draft.number + 1 + rest.count '\n' + 1 =
            draft.number + ('\n' :: rest).count '\n' + 1 := by
          rw [List.count_cons_self]
          omega
        rw [List.cons_append, linesFrom, linesFrom, if_pos rfl, if_pos rfl, ih, modeAfter,
          if_pos rfl, ← hnumber]
        rfl
      · -- Only the last character sees the line break as the one behind it.
        have hchar : readChar vendor.commentRules mode draft c (rest ++ '\n' :: back).head? =
            readChar vendor.commentRules mode draft c rest.head? := by
          cases rest with
          | nil => exact readChar_newline vendor mode draft c
          | cons d rest => rfl
        have hnumber := (exists_readChar vendor.commentRules mode draft c rest.head?).1
        rw [List.cons_append, linesFrom, linesFrom, if_neg hc, if_neg hc, hchar]
        dsimp only
        rw [ih, hnumber, fst_readChar, modeAfter, if_neg hc, Option.or_none,
          List.count_cons_of_ne hc]

/-- **The lines are numbered** one after the other, from the number of the first one. -/
theorem map_number_linesFrom (rules : CommentRules) (mode : Mode) (draft : Draft)
    (text : List Char) :
    (linesFrom rules mode draft text).map Line.number =
      List.range' draft.number (text.count '\n' + 1) := by
  induction text generalizing mode draft with
  | nil => rfl
  | cons c rest ih =>
      rw [linesFrom]
      split
      · rename_i hc
        subst hc
        rw [List.map_cons, ih, List.count_cons_self, List.range'_succ]
        rfl
      · rename_i hc
        dsimp only
        rw [ih, (exists_readChar ..).1, List.count_cons_of_ne hc]

theorem map_number_lines (rules : CommentRules) (source : String) :
    (lines rules source).map Line.number = List.range' 1 (source.toList.count '\n' + 1) :=
  map_number_linesFrom rules .code (.start 1) source.toList

/-! ## Lines without code -/

/-- No blank begins a mark that ends a piece of a line, or a keyword. -/
theorem spec_of_isBlank {c : Char} (h : Text.isBlank c = true) :
    c ∉ ['\'', '"', ';'] ∧ continuesName c = false ∧ Block.isCaseOf 'V' c = false := by
  have hall : ∀ c ∈ blanks, c ∉ ['\'', '"', ';'] ∧ continuesName c = false ∧
      Block.isCaseOf 'V' c = false :=
    List.all_iff_forall_prop.mp (by decide +kernel)
  exact hall c (mem_blanks h)

/-- In blanks, no piece of a line ends. -/
theorem cutFrom_of_allBlank {rules : CommentRules} {text : List Char}
    (h : Text.allBlank text = true) (before : List Char) :
    cutFrom rules .code before text = .lineEnd (before.reverse ++ text) := by
  induction text generalizing before with
  | nil => rw [cutFrom, List.append_nil]
  | cons c rest ih =>
      obtain ⟨hc, hrest⟩ := Bool.and_eq_true_iff.mp h
      obtain ⟨hmark, hname, -⟩ := spec_of_isBlank hc
      simp only [List.mem_cons, List.not_mem_nil, or_false, not_or] at hmark
      obtain ⟨hsingle, hdouble, hsemicolon⟩ := hmark
      have hword : afterEndVar? before.head? (c :: rest) = none := by
        refine if_neg fun hword => toUpper_notMem_endVar hname ?_
        rw [← beq_iff_eq.mp hword]
        exact List.mem_cons_self
      rw [cutFrom]
      · simp [hsingle, hdouble, hsemicolon, hword, ih hrest]
      · intro quote escaped heq
        cases heq

/-- In blanks, no block opens. -/
theorem find?_of_allBlank {text : List Char} (h : Text.allBlank text = true)
    (before : Option Char) : Block.find? before text = none := by
  induction text generalizing before with
  | nil => rfl
  | cons c rest ih =>
      obtain ⟨hc, hrest⟩ := Bool.and_eq_true_iff.mp h
      obtain ⟨-, -, hletter⟩ := spec_of_isBlank hc
      have hnone : Block.opening? (c :: rest) = none := by
        have hkeyword : Block.keyword? "VAR".toList (c :: rest) = none :=
          if_neg (Bool.eq_false_iff.mp hletter)
        rw [Block.opening?, hkeyword]
      rw [Block.find?, hnone, ite_self]
      exact ih hrest _

namespace Reader

variable {reader next : Reader} {rules : CommentRules}

/-- **A line without code** changes nothing, but perhaps whether the statement of an open block is
deferred. -/
theorem readLine_of_allBlank {line : Line} (h : Text.allBlank line.code.toList = true) :
    ∃ deferred, (reader.block = none → deferred = reader.deferred) ∧
      reader.readLine rules line = { reader with deferred } := by
  have hresume : reader.resume rules line.code.toList = reader :=
    if_neg (by simp [h])
  have hnothing : reader.append line line.code.toList = reader := if_pos h
  have hcut : cut rules line.code.toList = .lineEnd line.code.toList := cutFrom_of_allBlank h []
  rw [readLine, hresume]
  rcases Option.eq_none_or_eq_some reader.block with hblock | ⟨block, hblock⟩
  · exact ⟨reader.deferred, fun _ => rfl, readRest_outside hblock (find?_of_allBlank h none) line⟩
  · rw [readRest_inside hblock, hcut]
    simp only [hnothing]
    exact ⟨_, fun hnone => absurd (hblock.symm.trans hnone) (Option.some_ne_none block), rfl⟩

end Reader

/-! ## Further down -/

/-- The declaration, if its text stands so many lines further down. -/
def Declaration.later (lines : Nat) (declaration : Declaration) : Declaration :=
  { declaration with line := declaration.line + lines }

/-- What is found, if the text stands so many lines further down. -/
def Entry.later (lines : Nat) : Entry → Entry
  | declared declaration => declared (declaration.later lines)
  | unread line text reason => unread (line + lines) text reason

/-! ## The lines of entries -/

/-- A line with code has this number. -/
def HasCode (lines : List Line) (number : Nat) : Prop :=
  ∃ line ∈ lines, line.number = number ∧ Text.allBlank line.code.toList = false

theorem HasCode.mono {lines more : List Line} {number : Nat} (h : HasCode lines number)
    (hmore : lines ⊆ more) : HasCode more number := by
  obtain ⟨line, hline, hcode⟩ := h
  exact ⟨line, hmore hline, hcode⟩

namespace Reader

/-- Everything has been found in a line with code, one line after the other, and the open statement
began in such a line too, behind all that has been found. -/
structure IsLocated (lines : List Line) (reader : Reader) : Prop where
  sorted : reader.entries.Pairwise fun first later => first.line ≤ later.line
  entries : ∀ entry ∈ reader.entries, HasCode lines entry.line
  pending : Text.allBlank reader.pending = false → HasCode lines reader.pendingLine ∧
    ∀ entry ∈ reader.entries, entry.line ≤ reader.pendingLine

variable {reader next : Reader} {rules : CommentRules} {lines more : List Line} {line : Line}

theorem IsLocated.mono (h : reader.IsLocated lines) (hmore : lines ⊆ more) :
    reader.IsLocated more :=
  ⟨h.sorted, fun entry hmem => (h.entries entry hmem).mono hmore,
    fun hfilled => (h.pending hfilled).imp_left fun hcode => hcode.mono hmore⟩

/-- What the open statement is read as may be added to what has been found. -/
theorem IsLocated.append {entries : List Entry} (h : reader.IsLocated lines)
    (hlines : ∀ entry ∈ entries, entry.line = reader.pendingLine)
    (hblank : Text.allBlank reader.pending = true → entries = []) :
    (reader.entries ++ entries).Pairwise (fun first later => first.line ≤ later.line) ∧
      ∀ entry ∈ reader.entries ++ entries, HasCode lines entry.line := by
  cases hpending : Text.allBlank reader.pending with
  | true =>
      rw [hblank hpending, List.append_nil]
      exact ⟨h.sorted, h.entries⟩
  | false =>
      obtain ⟨hcode, hbefore⟩ := h.pending hpending
      refine ⟨List.pairwise_append.mpr ⟨h.sorted, ?_, ?_⟩,
        List.forall_mem_append.mpr ⟨h.entries, ?_⟩⟩
      · refine List.pairwise_of_forall_mem_list fun first hfirst later hlater => ?_
        rw [hlines first hfirst, hlines later hlater]
      · intro entry hentry later hlater
        rw [hlines later hlater]
        exact hbefore entry hentry
      · intro entry hentry
        rw [hlines entry hentry]
        exact hcode

/-- **A step in a line with code** keeps everything in its place. -/
theorem Step.isLocated (hstep : Step rules line reader next) (hline : line ∈ lines)
    (hcode : Text.allBlank line.code.toList = false)
    (hlast : ∀ other ∈ lines, other.number ≤ line.number) (h : reader.IsLocated lines) :
    next.IsLocated lines := by
  cases hstep with
  | piece hblock text =>
      obtain heq | ⟨pending, since, comment, -, hsince, heq⟩ := append_cases reader line text
      · rwa [heq]
      · rw [heq]
        refine ⟨h.sorted, h.entries, fun _ => ?_⟩
        -- A statement that goes on keeps the line on which it began.
        cases hpending : Text.allBlank reader.pending with
        | true =>
            rw [hpending, if_pos rfl] at hsince
            subst hsince
            refine ⟨⟨line, hline, rfl, hcode⟩, fun entry hentry => ?_⟩
            obtain ⟨other, hother, hnumber, -⟩ := h.entries entry hentry
            exact hnumber ▸ hlast other hother
        | false =>
            rw [hpending, if_neg Bool.false_ne_true] at hsince
            subst hsince
            exact h.pending hpending
  | @statement block hblock unterminated =>
      obtain ⟨entries, problems, hfound, hblank, heq⟩ :=
        exists_endStatement reader rules block unterminated
      obtain ⟨hsorted, hentries⟩ := h.append hfound.entryLines hblank
      rw [heq]
      exact ⟨hsorted, hentries, fun hfilled => absurd hfilled (by simp [Text.allBlank])⟩
  | opens => exact ⟨h.sorted, h.entries, h.pending⟩
  | closes => exact ⟨h.sorted, h.entries, h.pending⟩
  | defers => exact ⟨h.sorted, h.entries, h.pending⟩

theorem IsLocated.readLine (h : reader.IsLocated lines) (rules : CommentRules)
    (hline : line ∈ lines) (hlast : ∀ other ∈ lines, other.number ≤ line.number) :
    (reader.readLine rules line).IsLocated lines := by
  cases hcode : Text.allBlank line.code.toList with
  | true =>
      obtain ⟨deferred, -, heq⟩ := readLine_of_allBlank hcode
      rw [heq]
      exact ⟨h.sorted, h.entries, h.pending⟩
  | false => exact (steps_readLine line).keeps (fun hstep => hstep.isLocated hline hcode hlast) h

/-- **All lines, one after the other,** keep everything in its place. -/
theorem IsLocated.readLines (h : reader.IsLocated lines) (rules : CommentRules)
    (hsorted : (lines ++ more).Pairwise fun first later => first.number ≤ later.number) :
    (more.foldl (Reader.readLine rules) reader).IsLocated (lines ++ more) := by
  induction more generalizing reader lines with
  | nil => rwa [List.append_nil]
  | cons line more ih =>
      rw [List.append_cons] at hsorted ⊢
      have hlast : ∀ other ∈ lines ++ [line], other.number ≤ line.number := by
        obtain ⟨hfront, -, -⟩ := List.pairwise_append.mp hsorted
        obtain ⟨-, -, hbefore⟩ := List.pairwise_append.mp hfront
        refine List.forall_mem_append.mpr ⟨fun other hother => ?_, ?_⟩
        · exact hbefore other hother line (List.mem_singleton.mpr rfl)
        · exact List.forall_mem_singleton.mpr le_rfl
      have hread := (h.mono (List.subset_append_left lines [line])).readLine rules
        (List.mem_append_right lines (List.mem_singleton.mpr rfl)) hlast
      exact ih hread hsorted

end Reader

/-! ## Sources -/

/-- The lines of a source are numbered from 1, and each line break ends those of the text in front
of it and starts the next one. -/
structure AreNumbered (rules : CommentRules) (source : String) : Prop where
  numbers : (lines rules source).map Line.number = List.range' 1 (source.toList.count '\n' + 1)
  atLineBreak : ∀ front back, source.toList = front ++ '\n' :: back →
    ∃ first below, lines rules source = lines rules (String.ofList front) ++ first :: below ∧
      first.number = (lines rules (String.ofList front)).length + 1

/-- Everything is found in a line with code, in the order of the lines, and for everything that
could not be read there is one error about it, in the same order. -/
structure Extraction.IsLocated (extraction : Extraction) (lines : List Line) : Prop where
  sorted : extraction.entries.Pairwise fun first later => first.line ≤ later.line
  numbered : ∀ entry ∈ extraction.entries, 1 ≤ entry.line ∧ entry.line ≤ lines.length
  hasCode : ∀ entry ∈ extraction.entries, HasCode lines entry.line
  tallies : Tallies extraction.entries extraction.diagnostics

theorem length_lines (rules : CommentRules) (source : String) :
    (lines rules source).length = source.toList.count '\n' + 1 := by
  have hnumbers := congrArg List.length (map_number_lines rules source)
  rwa [List.length_map, List.length_range'] at hnumbers

theorem areNumbered_lines (vendor : Vendor) (source : String) :
    AreNumbered vendor.commentRules source where
  numbers := map_number_lines vendor.commentRules source
  atLineBreak front back hsplit := by
    have hlines := linesFrom_append_newline vendor .code (.start 1) front back
    have hlength := length_lines vendor.commentRules (String.ofList front)
    have hnumbers := map_number_linesFrom vendor.commentRules
      (modeAfter vendor.commentRules .code none front).atLineBreak
      (.start ((Draft.start 1).number + front.count '\n' + 1)) back
    obtain ⟨first, below, hcons⟩ := List.exists_cons_of_ne_nil
      (linesFrom_ne_nil vendor.commentRules _ (.start _) back)
    rw [hcons, List.map_cons, List.range'_succ] at hnumbers
    rw [String.toList_ofList] at hlength
    refine ⟨first, below, ?_, ?_⟩
    · rw [lines, hsplit, hlines, hcons, lines, String.toList_ofList]
    · rw [hlength, (List.cons.inj hnumbers).1, Draft.start, Draft.start, Nat.add_comm 1]

/-- **Everything is found where it stands.**  The lines of a source are cut at its line breaks and
numbered from 1; what is found comes in the order of the lines, each entry in a line with code, and
the errors about statements are one for each entry that could not be read, in the same order. -/
theorem isLocated_extract (vendor : Vendor) (source : String) :
    AreNumbered vendor.commentRules source ∧
      (extract vendor source).IsLocated (lines vendor.commentRules source) := by
  have hnumbers := map_number_lines vendor.commentRules source
  have hsorted : ([] ++ lines vendor.commentRules source).Pairwise
      fun first later : Line => first.number ≤ later.number := by
    have hrange : (List.range' 1 (source.toList.count '\n' + 1)).Pairwise (· ≤ ·) :=
      List.pairwise_le_range'
    rw [← hnumbers] at hrange
    exact List.pairwise_map.mp hrange
  have hstart : ({} : Reader).IsLocated [] :=
    ⟨.nil, List.forall_mem_nil _, fun hfilled => absurd hfilled (by decide)⟩
  have hread := hstart.readLines vendor.commentRules hsorted
  obtain ⟨entries, problems, -, hlines, hblank, hentries, -⟩ := Reader.exists_finish
    ((lines vendor.commentRules source).foldl (Reader.readLine vendor.commentRules) {})
    vendor.commentRules (lastLine (lines vendor.commentRules source)) (Text.isAllBlank source)
  obtain ⟨hordered, hcode⟩ := hread.append hlines hblank
  have hentries : (extract vendor source).entries = _ := hentries
  rw [← hentries] at hordered hcode
  refine ⟨areNumbered_lines vendor source, hordered, fun entry hmem => ?_, hcode,
    tallies_extract vendor source⟩
  obtain ⟨line, hline, hnumber, -⟩ := hcode entry hmem
  have hmem : line.number ∈ (lines vendor.commentRules source).map Line.number :=
    List.mem_map_of_mem hline
  rw [hnumbers, List.mem_range'_1, hnumber] at hmem
  rw [length_lines]
  omega

end PlcTags.Source
