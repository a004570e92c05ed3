import PlcTags.Proofs.Source.Reading

/-!
# What comments hold

What stands inside of a comment has no influence on what is declared.  A source is bare if
its comments hold nothing but their line breaks, and every source has the same declarations
and the same problems as its bare form, in which no declaration has a description
(`extract_bare`).  Sources that differ inside of their comments only have one bare form in
common (`recommented_line`, `recommented_block`), so they differ in the descriptions at most
(`extract_recommented`).

The lexer is compared with itself on the two texts, character by character: outside of
comments the same character is read in the same mode, and inside of them one of the two waits.
The reader of the lines never looks at a comment except to copy it.
-/

namespace PlcTags.Source

/-! ## Bare texts -/

/-- Whether the next character belongs to the text of a comment. -/
def Mode.isComment : Mode → Bool
  | lineComment | blockComment => true
  | code | braces | quoted .. | mark _ => false

/-- A text without the texts of its comments.  The marks of the comments stay, and so do all
line breaks. -/
def bareFrom (rules : CommentRules) (mode : Mode) : List Char → List Char
  | [] => []
  | c :: rest =>
    if c = '\n' then c :: bareFrom rules mode.atLineBreak rest
    else
      let behind := modeBehind rules mode c rest.head?
      if mode.isComment && behind.isComment then bareFrom rules behind rest
      else c :: bareFrom rules behind rest

def bare (rules : CommentRules) (source : String) : String :=
  String.ofList (bareFrom rules .code source.toList)

/-- The second text is the first one with other texts in its comments. -/
def Recommented (rules : CommentRules) (source other : String) : Prop :=
  bare rules source = bare rules other

instance (rules : CommentRules) (source other : String) :
    Decidable (Recommented rules source other) :=
  inferInstanceAs (Decidable (_ = _))

example : bare Vendor.beckhoff.commentRules "a : INT; (* old\nVAR *) b := '(* c *)'; // 1;" =
    "a : INT; (*\n*) b := '(* c *)'; //" := by
  decide +kernel

variable {rules : CommentRules} {mode : Mode} {c : Char} {next : Option Char}

/-! ## Modes -/

/-- The text of a comment begins behind the mark that opens it. -/
theorem mark_of_isComment (hmode : mode.isComment = false)
    (hbehind : (modeBehind rules mode c next).isComment = true) :
    mode = .mark (modeBehind rules mode c next) := by
  -- Code leads to a mark first, and neither quotes nor braces lead into a comment.
  cases mode with
  | code =>
      exfalso
      revert hbehind
      unfold modeBehind readChar
      dsimp only
      unfold readCode
      split
      · exact Bool.false_ne_true
      · split
        · exact Bool.false_ne_true
        · split
          · exact Bool.false_ne_true
          · split <;> exact Bool.false_ne_true
  | quoted quote escaped =>
      exfalso
      revert hbehind
      unfold modeBehind readChar
      dsimp only
      unfold afterQuoted
      split
      · exact Bool.false_ne_true
      · split
        · exact Bool.false_ne_true
        · split <;> exact Bool.false_ne_true
  | braces =>
      exfalso
      revert hbehind
      unfold modeBehind readChar
      dsimp only
      split <;> exact Bool.false_ne_true
  | mark next => rfl
  | lineComment => cases hmode
  | blockComment => cases hmode

/-- Within the text of a comment nothing else begins. -/
theorem modeBehind_of_isComment (hmode : mode.isComment = true)
    (hbehind : (modeBehind rules mode c next).isComment = true) :
    modeBehind rules mode c next = mode := by
  unfold modeBehind readChar at hbehind ⊢
  cases mode with
  | lineComment => rfl
  | blockComment =>
      dsimp only at hbehind ⊢
      split
      · rename_i hclose
        rw [if_pos hclose] at hbehind
        cases hbehind
      · rfl
  | _ => cases hmode

/-- Outside of comments the first character stays. -/
theorem head?_bareFrom (h : mode.isComment = false) (text : List Char) :
    (bareFrom rules mode text).head? = text.head? := by
  cases text with
  | nil => rfl
  | cons c rest =>
      rw [bareFrom]
      split
      · rfl
      · simp only [h, Bool.false_and, Bool.false_eq_true, if_false, List.head?_cons]

/-- A character that stays is read as before, because the character behind it stays as well if
it matters. -/
theorem readChar_bareFrom (hstays : (mode.isComment &&
      (modeBehind rules mode c next).isComment) = false) (draft : Draft) {rest : List Char}
    (hrest : rest.head? = next) :
    readChar rules mode draft c (bareFrom rules (modeBehind rules mode c next) rest).head? =
      readChar rules mode draft c next := by
  cases hbehind : (modeBehind rules mode c next).isComment with
  | false => rw [head?_bareFrom hbehind, hrest]
  | true =>
      rw [hbehind, Bool.and_true] at hstays
      rw [mark_of_isComment hstays hbehind]
      rfl

/-! ## Lines -/

/-- A line without its comment. -/
def Line.bare (line : Line) : Line :=
  { line with comment := "" }

/-- The draft of the same line, with no comment in it. -/
structure Draft.IsBare (other draft : Draft) : Prop where
  number : other.number = draft.number
  code : other.code = draft.code
  comment : Text.allBlank other.comment = true

theorem squeeze_of_allBlank {text : List Char} (h : Text.allBlank text = true) :
    Text.squeeze text = [] := by
  have hwords : Text.words (text ++ []) = [] :=
    Text.words_gap_append [] (List.all_eq_true.mp h)
  rw [Text.squeeze, ← List.append_nil text, hwords]
  rfl

namespace Draft

variable {draft other : Draft}

theorem isBare_start (number : Nat) : (start number).IsBare (start number) :=
  ⟨rfl, rfl, rfl⟩

theorem IsBare.finish (h : other.IsBare draft) : other.finish = draft.finish.bare := by
  have hcomment : Text.allBlank other.comment.reverse = true := by
    rw [Text.allBlank, List.all_reverse]
    exact h.comment
  rw [Draft.finish, Draft.finish, h.number, h.code, squeeze_of_allBlank hcomment]
  rfl

theorem IsBare.addCode (h : other.IsBare draft) (c : Char) :
    (other.addCode c).IsBare (draft.addCode c) :=
  ⟨h.number, congrArg (c :: ·) h.code, h.comment⟩

theorem IsBare.openComment (h : other.IsBare draft) :
    other.openComment.IsBare draft.openComment :=
  ⟨h.number, h.code, h.comment⟩

/-- A comment adds nothing to the code. -/
theorem IsBare.addComment_right (h : other.IsBare draft) (c : Char) :
    other.IsBare (draft.addComment c) := by
  unfold Draft.addComment
  split
  · exact ⟨h.number, h.code, h.comment⟩
  · exact h

theorem IsBare.addBlank (h : other.IsBare draft) :
    (other.addComment ' ').IsBare (draft.addComment ' ') := by
  refine IsBare.addComment_right ?_ ' '
  unfold Draft.addComment
  split
  · have hspace : Text.isBlank ' ' = true := by decide
    exact ⟨h.number, h.code, Bool.and_eq_true_iff.mpr ⟨hspace, h.comment⟩⟩
  · exact h

/-- A character that stays adds the same code to both drafts. -/
theorem IsBare.readChar (h : other.IsBare draft)
    (hstays : (mode.isComment && (modeBehind rules mode c next).isComment) = false) :
    (Source.readChar rules mode other c next).2.IsBare
      (Source.readChar rules mode draft c next).2 := by
  unfold modeBehind at hstays
  unfold Source.readChar at hstays ⊢
  cases mode with
  | code =>
      dsimp only
      unfold readCode
      split
      · exact h.openComment
      · split
        · exact h.openComment.addBlank.addCode ' '
        · split
          · exact h.addCode ' '
          · split <;> exact h.addCode c
  | lineComment => cases hstays
  | blockComment =>
      dsimp only at hstays ⊢
      split
      · exact h.addBlank
      · rename_i hopen
        rw [if_neg hopen] at hstays
        cases hstays
  | braces => exact h
  | quoted quote escaped => exact h.addCode c
  | mark next => exact h

/-- A character of a comment adds nothing to the code. -/
theorem IsBare.readChar_right (h : other.IsBare draft)
    (hgoes : (mode.isComment && (modeBehind rules mode c next).isComment) = true) :
    other.IsBare (Source.readChar rules mode draft c next).2 := by
  obtain ⟨hmode, -⟩ := Bool.and_eq_true_iff.mp hgoes
  unfold Source.readChar
  cases mode with
  | lineComment => exact h.addComment_right c
  | blockComment =>
      dsimp only
      split
      · exact h.addComment_right ' '
      · exact h.addComment_right c
  | _ => cases hmode

end Draft

/-- **The lines of a bare text** are the lines of the text without their comments. -/
theorem linesFrom_bareFrom {draft other : Draft} (h : other.IsBare draft) (text : List Char) :
    linesFrom rules mode other (bareFrom rules mode text) =
      (linesFrom rules mode draft text).map Line.bare := by
  induction text generalizing mode draft other with
  | nil => exact congrArg ([·]) h.finish
  | cons c rest ih =>
      by_cases hc : c = '\n'
      · rw [bareFrom, linesFrom, if_pos hc, linesFrom, if_pos hc, if_pos hc, List.map_cons,
          h.finish, h.number, ih (Draft.isBare_start _)]
      · rw [bareFrom, if_neg hc, linesFrom, if_neg hc]
        dsimp only
        rw [fst_readChar]
        by_cases hgoes : (mode.isComment &&
            (modeBehind rules mode c rest.head?).isComment) = true
        · obtain ⟨hmode, hbehind⟩ := Bool.and_eq_true_iff.mp hgoes
          have hright := h.readChar_right hgoes
          rw [if_pos hgoes, modeBehind_of_isComment hmode hbehind]
          exact ih hright
        · have hstays := Bool.eq_false_iff.mpr hgoes
          rw [if_neg hgoes, linesFrom, if_neg hc]
          dsimp only
          rw [readChar_bareFrom hstays other rfl, fst_readChar]
          exact ih (h.readChar hstays)

theorem lines_bare (rules : CommentRules) (source : String) :
    lines rules (bare rules source) = (lines rules source).map Line.bare := by
  rw [lines, lines, bare, String.toList_ofList]
  exact linesFrom_bareFrom (Draft.isBare_start 1) _

/-- A text with a comment in it is not blank, whatever the comment holds. -/
theorem isAllBlank_bare (vendor : Vendor) (source : String) :
    Text.isAllBlank (bare vendor.commentRules source) = Text.isAllBlank source := by
  -- A blank opens nothing.
  have hblank : ∀ c next, Text.isBlank c = true →
      modeBehind vendor.commentRules .code c next = .code := by
    intro c next hc
    have hmark : ∀ d : Char, Text.isBlank d = false → (c == d) = false := by
      rintro d hd
      refine beq_false_of_ne ?_
      rintro rfl
      rw [hc] at hd
      cases hd
    have hopen : Text.isBlank vendor.commentRules.blockOpen.1 = false := by
      cases vendor <;> decide
    simp [modeBehind, readChar, readCode, isMark, hmark '/' (by decide), hmark _ hopen,
      hmark '\x7b' (by decide), hmark '\'' (by decide), hmark '"' (by decide)]
  have hall : ∀ text, Text.allBlank (bareFrom vendor.commentRules .code text) =
      Text.allBlank text := by
    intro text
    induction text with
    | nil => rfl
    | cons c rest ih =>
        rw [bareFrom]
        split
        · exact congrArg (Text.isBlank c && ·) ih
        · simp only [Mode.isComment, Bool.false_and, Bool.false_eq_true, if_false]
          cases hc : Text.isBlank c with
          | false => simp [Text.allBlank, hc]
          | true =>
              rw [hblank c _ hc]
              exact congrArg (Text.isBlank c && ·) ih
  rw [Text.isAllBlank, Text.isAllBlank, bare, String.toList_ofList, hall]

/-! ## Entries without descriptions -/

def Declaration.undescribed (declaration : Declaration) : Declaration :=
  { declaration with description := "" }

def Entry.undescribed : Entry → Entry
  | declared declaration => declared declaration.undescribed
  | unread line text reason => unread line text reason

/-- What was found and reported, without the descriptions. -/
def Extraction.undescribed (extraction : Extraction) : Extraction :=
  { extraction with entries := extraction.entries.map Entry.undescribed }

/-- A comment is copied into the descriptions, and has no other use. -/
theorem readDeclarations_undescribed (rules : CommentRules) (text : List Char) (block : Block)
    (comment : String) (line : Nat) :
    readDeclarations rules text block "" line =
      (readDeclarations rules text block comment line).map
        (List.map Declaration.undescribed) := by
  obtain ⟨outcome, heq⟩ := exists_readDeclarations rules text
  rw [heq, heq]
  cases outcome with
  | error reason => rfl
  | ok declarations =>
      refine congrArg Except.ok ?_
      rw [List.map_map]
      rfl

/-! ## Reading without comments -/

namespace Reader

/-- How far a text has been read, without the comments that were met. -/
def bare (reader : Reader) : Reader :=
  { reader with
    pendingComment := ""
    entries := reader.entries.map Entry.undescribed }

variable (rules : CommentRules) (reader : Reader)

theorem bare_append (line : Line) (piece : List Char) :
    (reader.append line piece).bare = reader.bare.append line.bare piece := by
  unfold Reader.append
  split
  · rfl
  · have hempty : line.bare.comment.isEmpty = true := rfl
    dsimp only
    rw [hempty, if_pos rfl]
    by_cases hpending : Text.allBlank reader.pending = true
    · have hbare : Text.allBlank reader.bare.pending = true := hpending
      rw [if_pos hpending, if_pos hbare]
      split <;> rfl
    · have hbare : ¬ Text.allBlank reader.bare.pending = true := hpending
      rw [if_neg hpending, if_neg hbare]
      split <;> rfl

theorem bare_keepUnread (text : List Char) (reason : Unreadable) :
    (reader.keepUnread text reason).bare = reader.bare.keepUnread text reason := by
  simp [keepUnread, bare, Entry.undescribed]

theorem bare_endStatement (block : Block) (unterminated : Bool) :
    (reader.endStatement rules block unterminated).bare =
      reader.bare.endStatement rules block unterminated := by
  have hread := readDeclarations_undescribed rules (Text.trim reader.pending) block
    reader.pendingComment reader.pendingLine
  unfold Reader.endStatement
  by_cases hempty : (Text.trim reader.pending).isEmpty = true
  · have hbare : (Text.trim reader.bare.pending).isEmpty = true := hempty
    dsimp only
    rw [if_pos hempty, if_pos hbare]
    rfl
  · have hbare : ¬ (Text.trim reader.bare.pending).isEmpty = true := hempty
    dsimp only
    rw [if_neg hempty, if_neg hbare]
    cases unterminated <;>
    · simp only [Bool.false_eq_true, if_false, if_true, reportUnterminated, report, bare]
      rw [hread]
      cases readDeclarations rules (Text.trim reader.pending) block reader.pendingComment
        reader.pendingLine <;> simp [keepUnread, Except.map, Entry.undescribed]

theorem bare_resume (code : List Char) :
    (reader.resume rules code).bare = reader.bare.resume rules code := by
  rcases Option.eq_none_or_eq_some reader.block with hblock | ⟨block, hblock⟩
  · have hnone : reader.bare.block = none := hblock
    rw [resume_outside hblock, resume_outside hnone, apply_ite bare]
    rfl
  · have hsome : reader.bare.block = some block := hblock
    rw [resume_inside hblock, resume_inside hsome, apply_ite bare, apply_ite bare,
      bare_endStatement]
    rfl

theorem bare_endBlock (block : Block) :
    (reader.endBlock rules block).bare = reader.bare.endBlock rules block := by
  unfold Reader.endBlock
  by_cases hpending : Text.allBlank reader.pending = true
  · have hbare : Text.allBlank reader.bare.pending = true := hpending
    rw [if_pos hpending, if_pos hbare]
    rfl
  · have hbare : ¬ Text.allBlank reader.bare.pending = true := hpending
    rw [if_neg hpending, if_neg hbare, ← bare_endStatement]
    rfl

/-- The rest of a line is read with and without its comment alike. -/
theorem bare_readRest (line : Line) (text : List Char) :
    (reader.readRest rules line text).bare = reader.bare.readRest rules line.bare text := by
  fun_induction Reader.readRest rules line reader text with
  | case1 reader text hblock hfind =>
      have hnone : reader.bare.block = none := hblock
      rw [readRest_outside hnone hfind]
  | case2 reader text hblock block rest hfind hlength ih =>
      have hnone : reader.bare.block = none := hblock
      rw [readRest_opening hnone hfind, ih]
      rfl
  | case3 reader text block hblock piece rest hcut hlength ih =>
      have hsome : reader.bare.block = some block := hblock
      rw [readRest_inside hsome, hcut, ih, bare_endStatement, bare_append]
  | case4 reader text block hblock piece rest hcut hlength hafter ih =>
      have hsome : reader.bare.block = some block := hblock
      rw [readRest_inside hsome, hcut, ih, bare_endBlock, bare_append]
  | case5 reader text block hblock piece hcut =>
      have hsome : reader.bare.block = some block := hblock
      rw [readRest_inside hsome, hcut]
      simp only [← bare_append]
      rfl

theorem bare_readLine (line : Line) :
    (reader.readLine rules line).bare = reader.bare.readLine rules line.bare := by
  rw [Reader.readLine, bare_readRest, bare_resume]
  rfl

theorem bare_readLines (lines : List Line) :
    (lines.foldl (readLine rules) reader).bare =
      (lines.map Line.bare).foldl (readLine rules) reader.bare := by
  induction lines generalizing reader with
  | nil => rfl
  | cons line lines ih => rw [List.foldl_cons, ih, bare_readLine, List.map_cons, List.foldl_cons]

theorem bare_finish (lastLine : Nat) (isBlank : Bool) :
    (reader.finish rules lastLine isBlank).bare = reader.bare.finish rules lastLine isBlank := by
  unfold Reader.finish
  cases hblock : reader.block with
  | none =>
      have hnone : reader.bare.block = none := hblock
      have hsaw : reader.bare.sawBlock = reader.sawBlock := rfl
      simp only [hnone, hsaw]
      split <;> rfl
  | some block =>
      have hsome : reader.bare.block = some block := hblock
      have hdeferred : reader.bare.deferred = reader.deferred := rfl
      have hpending : reader.bare.pending = reader.pending := rfl
      simp only [hsome, hdeferred, hpending]
      split
      · rw [← bare_endStatement]
        rfl
      · split
        · rfl
        · rw [← bare_keepUnread]
          rfl

end Reader

/-! ## Other texts in comments -/

/-- What follows a text has its bare form to itself. -/
theorem bareFrom_append (front : List Char) {back other : List Char}
    (hhead : back.head? = other.head?)
    (hback : bareFrom rules (modeAfter rules mode back.head? front) back =
      bareFrom rules (modeAfter rules mode back.head? front) other) :
    bareFrom rules mode (front ++ back) = bareFrom rules mode (front ++ other) := by
  induction front generalizing mode with
  | nil => exact hback
  | cons c rest ih =>
      rw [modeAfter] at hback
      rw [List.cons_append, List.cons_append, bareFrom, bareFrom, List.head?_append,
        List.head?_append, ← hhead]
      by_cases hc : c = '\n'
      · rw [if_pos hc] at hback
        rw [if_pos hc, if_pos hc, ih hback]
      · rw [if_neg hc] at hback
        rw [if_neg hc, if_neg hc]
        dsimp only
        rw [ih hback]

/-- Up to the end of its line, a comment is left out. -/
theorem bareFrom_lineComment {text : List Char} (h : '\n' ∉ text) (rest : List Char) :
    bareFrom rules .lineComment (text ++ rest) = bareFrom rules .lineComment rest := by
  induction text with
  | nil => rfl
  | cons c text ih =>
      obtain ⟨hc, htext⟩ := not_or.mp (List.mem_cons.not.mp h)
      rw [List.cons_append, bareFrom, if_neg fun heq => hc heq.symm]
      exact ih htext

/-- Up to the mark that closes it, only the line breaks of a comment are kept. -/
theorem bareFrom_blockComment {first second : Char} (hclose : rules.blockClose = (first, second))
    (hne : first ≠ second) {text : List Char} (h : ¬ [first, second] <:+: text)
    (rest : List Char) :
    bareFrom rules .blockComment (text ++ first :: rest) =
      text.filter (· == '\n') ++ bareFrom rules .blockComment (first :: rest) := by
  induction text with
  | nil => rfl
  | cons c text ih =>
      have hlater := ih fun hinner => h (hinner.trans (List.suffix_cons c text).isInfix)
      rw [List.cons_append, bareFrom]
      by_cases hc : c = '\n'
      · subst hc
        rw [if_pos rfl, List.filter_cons_of_pos (by decide), List.cons_append]
        exact congrArg ('\n' :: ·) hlater
      · have hmark : isMark rules.blockClose c (text ++ first :: rest).head? = false := by
          rw [hclose]
          refine Bool.eq_false_iff.mpr fun hmark => ?_
          obtain ⟨hfirst, hnext⟩ := Bool.and_eq_true_iff.mp hmark
          obtain rfl := beq_iff_eq.mp hfirst
          -- The mark would end either behind the text or within it.
          cases text with
          | nil => exact hne (Option.some.inj (beq_iff_eq.mp hnext))
          | cons d text =>
              obtain rfl := Option.some.inj (beq_iff_eq.mp hnext)
              exact h (List.prefix_append [c, d] text).isInfix
        have hmode : modeBehind rules .blockComment c (text ++ first :: rest).head? =
            .blockComment := by
          rw [modeBehind, readChar, hmark]
          rfl
        rw [if_neg hc, hmode, List.filter_cons_of_neg (by simpa using hc)]
        exact hlater

variable {vendor : Vendor} {front old new : List Char}

/-- **A comment at the end of a line** may hold any text instead of its own. -/
theorem recommented_line
    (hcode : modeAfter vendor.commentRules .code (some '/') front = .code)
    (hold : '\n' ∉ old) (hnew : '\n' ∉ new) (back : List Char) :
    Recommented vendor.commentRules (String.ofList (front ++ '/' :: '/' :: (old ++ back)))
      (String.ofList (front ++ '/' :: '/' :: (new ++ back))) := by
  have hopen : ∀ rest, bareFrom vendor.commentRules .code ('/' :: '/' :: rest) =
      '/' :: '/' :: bareFrom vendor.commentRules .lineComment rest := by
    intro rest
    cases vendor <;> rfl
  refine congrArg String.ofList ?_
  rw [String.toList_ofList, String.toList_ofList]
  refine bareFrom_append front rfl ?_
  rw [List.head?_cons, hcode, hopen, hopen, bareFrom_lineComment hold, bareFrom_lineComment hnew]

/-- **A comment between marks** may hold any text with the same line breaks and without the mark
that closes it. -/
theorem recommented_block
    (hcode : modeAfter vendor.commentRules .code (some vendor.commentRules.blockOpen.1) front =
      .code)
    (hold : ¬ [vendor.commentRules.blockClose.1, vendor.commentRules.blockClose.2] <:+: old)
    (hnew : ¬ [vendor.commentRules.blockClose.1, vendor.commentRules.blockClose.2] <:+: new)
    (hbreaks : old.filter (· == '\n') = new.filter (· == '\n')) (back : List Char) :
    Recommented vendor.commentRules
      (String.ofList (front ++ vendor.commentRules.blockOpen.1 ::
        vendor.commentRules.blockOpen.2 :: (old ++ vendor.commentRules.blockClose.1 ::
          vendor.commentRules.blockClose.2 :: back)))
      (String.ofList (front ++ vendor.commentRules.blockOpen.1 ::
        vendor.commentRules.blockOpen.2 :: (new ++ vendor.commentRules.blockClose.1 ::
          vendor.commentRules.blockClose.2 :: back))) := by
  have hopen : ∀ rest, bareFrom vendor.commentRules .code (vendor.commentRules.blockOpen.1 ::
      vendor.commentRules.blockOpen.2 :: rest) = vendor.commentRules.blockOpen.1 ::
        vendor.commentRules.blockOpen.2 :: bareFrom vendor.commentRules .blockComment rest := by
    intro rest
    cases vendor <;> rfl
  have hne : vendor.commentRules.blockClose.1 ≠ vendor.commentRules.blockClose.2 := by
    cases vendor <;> decide
  refine congrArg String.ofList ?_
  rw [String.toList_ofList, String.toList_ofList]
  refine bareFrom_append front rfl ?_
  rw [List.head?_cons, hcode, hopen, hopen, bareFrom_blockComment rfl hne hold,
    bareFrom_blockComment rfl hne hnew, hbreaks]

/-! ## Sources -/

theorem lastLine_map_bare (lines : List Line) :
    lastLine (lines.map Line.bare) = lastLine lines := by
  rw [lastLine, lastLine, List.getLast?_map]
  cases lines.getLast? <;> rfl

/-- **A bare source has what the source has**, the descriptions apart. -/
theorem extract_bare (vendor : Vendor) (source : String) :
    extract vendor (bare vendor.commentRules source) = (extract vendor source).undescribed := by
  unfold extract
  dsimp only
  rw [lines_bare, lastLine_map_bare, isAllBlank_bare]
  have hlines := Reader.bare_readLines vendor.commentRules {} (lines vendor.commentRules source)
  have hstart : Reader.bare {} = {} := rfl
  rw [hstart] at hlines
  rw [← hlines, ← Reader.bare_finish]
  rfl

/-- **Comments do not matter.**  Two sources that differ inside of their comments only have the
same entries and the same problems, the descriptions apart. -/
theorem extract_recommented {vendor : Vendor} {source other : String}
    (h : Recommented vendor.commentRules source other) :
    (extract vendor source).undescribed = (extract vendor other).undescribed := by
  have hbare : bare vendor.commentRules source = bare vendor.commentRules other := h
  rw [← extract_bare, ← extract_bare, hbare]

/-- A declaration with a comment of two lines in it. -/
def gateSource (comment : String) : String :=
  "VAR_INPUT\n  Open : BOOL (*" ++ comment ++ "*) := TRUE; // gate\nEND_VAR"

/-- The comment may hold quotes, the ends of statements and of blocks, and the beginnings of other
comments. -/
theorem extract_recommented_gate :
    Recommented Vendor.siemens.commentRules (gateSource " from\n the panel ")
        (gateSource "); \"'END_VAR; \x7b //\nVAR x (* ") ∧
      (extract .siemens (gateSource " from\n the panel ")).undescribed =
        (extract .siemens (gateSource "); \"'END_VAR; \x7b //\nVAR x (* ")).undescribed :=
  ⟨by decide +kernel, extract_recommented (by decide +kernel)⟩

end PlcTags.Source
