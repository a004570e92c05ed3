import PlcTags.Proofs.Source.Keyword

/-!
# One source behind another

What is found in two sources, one behind the other, is what is found in either of them, with the
lines of the second counted on (`extract_append`).  The first one must be whole: it has closed its
blocks and its comments.

Outside of blocks nothing is left of what has been read (`Reader.Rests`), so the reader begins the
second source as it would begin a text of its own.  From there on it is compared with a reader of
the second source alone: what either of them does with a line, the other one does with the same line
further up or down (`Reader.Follows`).
-/

namespace PlcTags

/-- The problem, if the text stands so many lines further down. -/
def Diagnostic.later (lines : Nat) (problem : Diagnostic) : Diagnostic :=
  { problem with line := problem.line.map (· + lines) }

namespace Source

variable {rules : CommentRules} {vendor : Vendor}

/-! ## Lines -/

/-- The line, if the text stands so many lines further down. -/
def Line.later (lines : Nat) (line : Line) : Line :=
  { line with number := line.number + lines }

def Draft.later (lines : Nat) (draft : Draft) : Draft :=
  { draft with number := draft.number + lines }

theorem Draft.addComment_later (lines : Nat) (draft : Draft) (c : Char) :
    (draft.later lines).addComment c = (draft.addComment c).later lines := by
  obtain ⟨number, code, comment, belongs⟩ := draft
  cases belongs <;> rfl

/-- A character is read without a look at the number of its line. -/
theorem readChar_later (rules : CommentRules) (mode : Mode) (lines : Nat) (draft : Draft) (c : Char)
    (next : Option Char) :
    readChar rules mode (draft.later lines) c next =
      ((readChar rules mode draft c next).1, (readChar rules mode draft c next).2.later lines) := by
  cases mode with
  | code =>
      unfold readChar readCode
      dsimp only
      split
      · rfl
      · split
        · exact congrArg (Prod.mk _) (congrArg (Draft.addCode · ' ')
            (Draft.addComment_later lines draft.openComment ' '))
        · split
          · rfl
          · split <;> rfl
  | lineComment => exact congrArg (Prod.mk _) (Draft.addComment_later lines draft c)
  | blockComment =>
      unfold readChar
      dsimp only
      split <;> exact congrArg (Prod.mk _) (Draft.addComment_later lines draft _)
  | braces => rfl
  | quoted quote escaped => rfl
  | mark next => rfl

/-- **The lines of a text** that stands further down are the same, but for their numbers. -/
theorem linesFrom_later (rules : CommentRules) (mode : Mode) (lines : Nat) (draft : Draft)
    (text : List Char) : linesFrom rules mode (draft.later lines) text =
      (linesFrom rules mode draft text).map (Line.later lines) := by
  induction text generalizing mode draft with
  | nil => rfl
  | cons c rest ih =>
      by_cases hc : c = '\n'
      · have hnext : Draft.start (draft.number + lines + 1) =
            (Draft.start (draft.number + 1)).later lines :=
          congrArg Draft.start (Nat.add_right_comm ..)
        rw [linesFrom, if_pos hc, linesFrom, if_pos hc, List.map_cons, ← ih, ← hnext]
        rfl
      · rw [linesFrom, if_neg hc, linesFrom, if_neg hc, readChar_later]
        exact ih _ _

/-! ### The end of a text -/

/-- Within a mark, the second character of the mark follows, and it is no line break. -/
def Mode.Meets (text : List Char) : Mode → Prop
  | mark next => (∀ other, next ≠ mark other) ∧ ∃ c ∈ text.head?, c ≠ '\n'
  | code | lineComment | blockComment | braces | quoted .. => True

theorem Mode.meets_of_not_mark {mode : Mode} (h : ∀ next, mode ≠ mark next) (text : List Char) :
    mode.Meets text := by
  cases mode with
  | mark next => exact absurd rfl (h next)
  | _ => trivial

/-- The second character of a mark stands where it is looked for. -/
theorem exists_head?_of_isMark {mark : Char × Char} {c : Char} {next : Option Char}
    (h : isMark mark c next = true) (hline : mark.2 ≠ '\n') : ∃ d ∈ next, d ≠ '\n' := by
  obtain ⟨-, hnext⟩ := Bool.and_eq_true_iff.mp h
  exact ⟨mark.2, beq_iff_eq.mp hnext, hline⟩

theorem meets_modeBehind {mode : Mode} {c : Char} {rest : List Char} (h : mode.Meets (c :: rest)) :
    (modeBehind vendor.commentRules mode c rest.head?).Meets rest := by
  unfold modeBehind readChar
  cases mode with
  | code =>
      dsimp only
      unfold readCode
      split
      · rename_i hmark
        exact ⟨fun _ => Mode.noConfusion, exists_head?_of_isMark hmark (by decide)⟩
      · split
        · rename_i hmark
          refine ⟨fun _ => Mode.noConfusion, exists_head?_of_isMark hmark ?_⟩
          rw [blockOpen_snd]
          decide
        · split
          · trivial
          · split <;> trivial
  | blockComment =>
      dsimp only
      split
      · rename_i hmark
        refine ⟨fun _ => Mode.noConfusion, exists_head?_of_isMark hmark ?_⟩
        cases vendor <;> decide
      · trivial
  | quoted quote escaped =>
      dsimp only
      unfold afterQuoted
      split
      · trivial
      · split
        · trivial
        · split <;> trivial
  | braces => dsimp only; split <;> trivial
  | lineComment => trivial
  | mark next => exact Mode.meets_of_not_mark h.1 rest

/-- **No text ends within a mark.** -/
theorem modeAfter_ne_mark {mode : Mode} {text : List Char} (h : mode.Meets text) (next : Mode) :
    modeAfter vendor.commentRules mode none text ≠ .mark next := by
  induction text generalizing mode with
  | nil =>
      rintro rfl
      obtain ⟨-, c, hc, -⟩ := h
      cases hc
  | cons c rest ih =>
      rw [modeAfter, Option.or_none]
      by_cases hc : c = '\n'
      · rw [if_pos hc]
        refine ih (Mode.meets_of_not_mark (fun other heq => ?_) rest)
        cases mode with
        | mark next =>
            obtain ⟨-, d, hd, hline⟩ := h
            exact hline (Option.some.inj hd ▸ hc)
        | _ => cases heq
      · rw [if_neg hc]
        exact ih (meets_modeBehind h)

/-! ## Outside of blocks -/

namespace Reader

variable {reader next : Reader} {line : Line}

/-- Nothing of a statement is left where none is open, and outside of blocks none is open. -/
structure IsTidy (reader : Reader) : Prop where
  blank : Text.allBlank reader.pending = true → reader.pending = [] ∧ reader.pendingComment = ""
  outside : reader.block = none → Text.allBlank reader.pending = true

theorem Step.isTidy (hstep : Step rules line reader next) (h : reader.IsTidy) : next.IsTidy := by
  cases hstep with
  | piece hblock text =>
      obtain heq | ⟨pending, since, comment, hpending, -, heq⟩ := append_cases reader line text
      · rwa [heq]
      · rw [heq]
        refine ⟨fun hblank => ?_, fun hnone => ?_⟩
        · rw [hpending] at hblank
          cases hblank
        · rw [hblock] at hnone
          cases hnone
  | @statement block hblock unterminated =>
      obtain ⟨_, _, -, -, heq⟩ := exists_endStatement reader rules block unterminated
      rw [heq]
      exact ⟨fun _ => ⟨rfl, rfl⟩, fun _ => rfl⟩
  | opens => exact ⟨h.blank, fun hnone => absurd hnone (Option.some_ne_none _)⟩
  | closes hblank => exact ⟨h.blank, fun _ => hblank⟩
  | defers => exact ⟨h.blank, h.outside⟩

theorem deferred_append (reader : Reader) (line : Line) (piece : List Char) :
    (reader.append line piece).deferred = reader.deferred := by
  obtain heq | ⟨_, _, _, -, -, heq⟩ := append_cases reader line piece <;> rw [heq]

theorem deferred_endStatement (reader : Reader) (rules : CommentRules) (block : Block)
    (unterminated : Bool) :
    (reader.endStatement rules block unterminated).deferred = reader.deferred := by
  obtain ⟨_, _, -, -, heq⟩ := exists_endStatement reader rules block unterminated
  rw [heq]

theorem deferred_endBlock (reader : Reader) (rules : CommentRules) (block : Block) :
    (reader.endBlock rules block).deferred = reader.deferred := by
  unfold Reader.endBlock
  dsimp only
  split
  · rfl
  · exact deferred_endStatement reader rules block true

/-- A statement is deferred at the end of a line only, inside of its block. -/
theorem deferred_readRest (line : Line) (text : List Char) (h : reader.deferred = false) :
    (reader.readRest rules line text).block = none →
      (reader.readRest rules line text).deferred = false := by
  fun_induction Reader.readRest rules line reader text with
  | case1 => exact fun _ => h
  | case2 reader text hblock block rest hfind hlength ih => exact ih h
  | case3 reader text block hblock piece rest hcut hlength ih =>
      refine ih ?_
      rw [deferred_endStatement, deferred_append, h]
  | case4 reader text block hblock piece rest hcut hlength hafter ih =>
      refine ih ?_
      rw [deferred_endBlock, deferred_append, h]
  | case5 reader text block hblock piece hcut =>
      have hpiece : (reader.append line piece).block = some block :=
        (block_append reader line piece).trans hblock
      exact fun hnone => absurd (hpiece.symm.trans hnone) (Option.some_ne_none block)

theorem deferred_resume {code : List Char} (hcode : Text.allBlank code = false) :
    (reader.resume rules code).deferred = false := by
  unfold Reader.resume
  rw [hcode, Bool.not_false, Bool.and_true]
  split
  · dsimp only
    split
    · split
      · rfl
      · exact deferred_endStatement _ _ _ _
    · rfl
  · rename_i hdeferred
    exact Bool.eq_false_iff.mpr hdeferred

/-- **Outside of blocks no statement is deferred** between two lines. -/
theorem deferred_readLine (rules : CommentRules) (line : Line)
    (h : reader.block = none → reader.deferred = false) :
    (reader.readLine rules line).block = none → (reader.readLine rules line).deferred = false := by
  cases hcode : Text.allBlank line.code.toList with
  | true =>
      obtain ⟨deferred, hsame, heq⟩ := @readLine_of_allBlank reader rules line hcode
      rw [heq]
      exact fun hnone => (hsame hnone).trans (h hnone)
  | false => exact deferred_readRest line _ (deferred_resume hcode)

/-- **Behind a text whose blocks are closed** nothing is left of it but what has been found. -/
theorem isSettled_readLines (rules : CommentRules) (lines : List Line)
    (hclosed : (lines.foldl (readLine rules) {}).block = none) :
    (lines.foldl (readLine rules) {}).IsSettled := by
  have hstart : ({} : Reader).IsTidy := ⟨fun _ => ⟨rfl, rfl⟩, fun _ => rfl⟩
  have htidy := keeps_readLines rules (fun hstep h => hstep.isTidy h) lines hstart
  obtain ⟨hpending, hcomment⟩ := htidy.blank (htidy.outside hclosed)
  have hdeferred : ∀ reader : Reader, (reader.block = none → reader.deferred = false) →
      (lines.foldl (readLine rules) reader).block = none →
        (lines.foldl (readLine rules) reader).deferred = false := by
    clear hclosed htidy hpending hcomment
    induction lines with
    | nil => exact fun reader h => h
    | cons line lines ih => exact fun reader h => ih _ (deferred_readLine rules line h)
  exact ⟨hpending, hcomment, hdeferred {} (fun _ => rfl) hclosed⟩

/-! ## Two readers -/

/-- The second reader reads the same text so many lines further down, behind other things. -/
structure Follows (lines : Nat) (entries : List Entry) (problems : List Diagnostic)
    (reader later : Reader) : Prop where
  block : later.block = reader.block
  pending : later.pending = reader.pending
  pendingComment : later.pendingComment = reader.pendingComment
  deferred : later.deferred = reader.deferred
  pendingLine : Text.allBlank reader.pending = false →
    later.pendingLine = reader.pendingLine + lines
  entries : later.entries = entries ++ reader.entries.map (Entry.later lines)
  diagnostics : later.diagnostics = problems ++ reader.diagnostics.map (Diagnostic.later lines)

variable {lines : Nat} {entries : List Entry} {problems : List Diagnostic} {later : Reader}

theorem Follows.declare (h : Follows lines entries problems reader later)
    (declarations : List Declaration) :
    Follows lines entries problems
      { reader with entries := reader.entries ++ declarations.map .declared }
      { later with
        entries := later.entries ++ (declarations.map (Declaration.later lines)).map .declared } :=
  { h with
    entries := by
      rw [h.entries, List.map_append, List.append_assoc, List.map_map, List.map_map]
      rfl }

theorem Follows.report (h : Follows lines entries problems reader later) (problem : Diagnostic) :
    Follows lines entries problems (reader.report problem)
      (later.report (problem.later lines)) :=
  { h with
    diagnostics := by
      unfold Reader.report
      rw [h.diagnostics, List.map_append, List.append_assoc]
      rfl }

theorem Follows.keepUnread (h : Follows lines entries problems reader later)
    (hline : later.pendingLine = reader.pendingLine + lines) (text : List Char)
    (reason : Unreadable) :
    Follows lines entries problems (reader.keepUnread text reason)
      (later.keepUnread text reason) :=
  { h with
    entries := by
      unfold Reader.keepUnread
      dsimp only
      rw [h.entries, hline, List.map_append, List.append_assoc]
      rfl
    diagnostics := by
      unfold Reader.keepUnread
      dsimp only
      rw [h.diagnostics, hline, List.map_append, List.append_assoc]
      rfl }

theorem Follows.append (h : Follows lines entries problems reader later) (line : Line)
    (piece : List Char) : Follows lines entries problems (reader.append line piece)
      (later.append (line.later lines) piece) := by
  -- A pending statement remembers its line, which is the only thing that is numbered.
  have hbegun : ∀ comment, Follows lines entries problems
      { reader with
        pending := Text.trim piece, pendingLine := line.number, pendingComment := comment }
      { later with
        pending := Text.trim piece, pendingLine := line.number + lines,
        pendingComment := comment } :=
    fun comment => { h with pending := rfl, pendingComment := rfl, pendingLine := fun _ => rfl }
  have hcomment : (line.later lines).comment = line.comment := rfl
  have hnumber : (line.later lines).number = line.number + lines := rfl
  unfold Reader.append
  split
  · exact h
  · dsimp only
    rw [h.pending, hcomment, hnumber]
    cases hpending : Text.allBlank reader.pending with
    | true =>
        simp only [if_true]
        split
        · exact hbegun ""
        · exact hbegun line.comment
    | false =>
        have hglued : Follows lines entries problems
            { reader with pending := reader.pending ++ ' ' :: Text.trim piece }
            { later with pending := reader.pending ++ ' ' :: Text.trim piece } :=
          { h with pending := rfl, pendingLine := fun _ => h.pendingLine hpending }
        simp only [Bool.false_eq_true, if_false]
        split
        · exact hglued
        · exact { hglued with pendingComment := rfl }

/-- What a text declares further down is what it declares, further down. -/
theorem readDeclarations_later (rules : CommentRules) (text : List Char) (block : Block)
    (comment : String) (number lines : Nat) :
    readDeclarations rules text block comment (number + lines) =
      (readDeclarations rules text block comment number).map
        (List.map (Declaration.later lines)) := by
  obtain ⟨outcome, heq⟩ := exists_readDeclarations rules text
  rw [heq, heq]
  cases outcome with
  | error reason => rfl
  | ok declarations =>
      refine congrArg Except.ok ?_
      rw [List.map_map]
      rfl

theorem Follows.clear (h : Follows lines entries problems reader later) :
    Follows lines entries problems { reader with pending := [], pendingComment := "" }
      { later with pending := [], pendingComment := "" } :=
  { h with
    pending := rfl
    pendingComment := rfl
    pendingLine := fun hfilled => absurd hfilled (by simp [Text.allBlank]) }

/-- A statement with its semicolon is read alike. -/
theorem Follows.endTerminated (h : Follows lines entries problems reader later)
    (hpending : Text.allBlank reader.pending = false) (rules : CommentRules) (block : Block) :
    Follows lines entries problems (reader.endStatement rules block false)
      (later.endStatement rules block false) := by
  have hline := h.pendingLine hpending
  have hread : readDeclarations rules (Text.trim reader.pending) block reader.pendingComment
      later.pendingLine =
        (readDeclarations rules (Text.trim reader.pending) block reader.pendingComment
          reader.pendingLine).map (List.map (Declaration.later lines)) := by
    rw [hline, readDeclarations_later]
  unfold Reader.endStatement
  simp only [h.pending, h.pendingComment, hread, Text.isEmpty_trim, hpending, Bool.false_eq_true,
    if_false]
  cases readDeclarations rules (Text.trim reader.pending) block reader.pendingComment
    reader.pendingLine with
  | error reason => exact h.clear.keepUnread hline _ reason
  | ok declarations => exact h.clear.declare declarations

/-- **A statement that ends** is read alike. -/
theorem Follows.endStatement (h : Follows lines entries problems reader later)
    (rules : CommentRules) (block : Block) (unterminated : Bool) :
    Follows lines entries problems (reader.endStatement rules block unterminated)
      (later.endStatement rules block unterminated) := by
  cases hpending : Text.allBlank reader.pending with
  | true =>
      rw [endStatement_of_allBlank reader rules hpending,
        endStatement_of_allBlank later rules (h.pending ▸ hpending)]
      exact h.clear
  | false =>
      cases unterminated with
      | false => exact h.endTerminated hpending rules block
      | true =>
          -- The warning names the line on which the statement began.
          have hreported : Follows lines entries problems
              (reader.reportUnterminated (Text.trim reader.pending))
              (later.reportUnterminated (Text.trim later.pending)) := by
            unfold reportUnterminated
            rw [h.pending, h.pendingLine hpending]
            exact h.report _
          rw [endStatement_unterminated reader rules hpending,
            endStatement_unterminated later rules (h.pending ▸ hpending)]
          exact hreported.endTerminated hpending rules block

theorem Follows.resume (h : Follows lines entries problems reader later) (rules : CommentRules)
    (code : List Char) :
    Follows lines entries problems (reader.resume rules code) (later.resume rules code) := by
  have hsettled : Follows lines entries problems { reader with deferred := false }
      { later with deferred := false } :=
    { h with deferred := rfl }
  have hcontinues : later.continues code = reader.continues code := by
    unfold Reader.continues
    rw [h.pending]
  rcases Option.eq_none_or_eq_some reader.block with hblock | ⟨block, hblock⟩
  · rw [resume_outside hblock, resume_outside (h.block.trans hblock), h.deferred]
    split
    · exact hsettled
    · exact h
  · rw [resume_inside hblock, resume_inside (h.block.trans hblock), h.deferred, hcontinues]
    split
    · split
      · exact hsettled
      · exact hsettled.endStatement rules block true
    · exact h

theorem Follows.endBlock (h : Follows lines entries problems reader later) (rules : CommentRules)
    (block : Block) :
    Follows lines entries problems (reader.endBlock rules block) (later.endBlock rules block) := by
  unfold Reader.endBlock
  dsimp only
  rw [h.pending]
  split
  · exact { h with block := rfl }
  · exact { h.endStatement rules block true with block := rfl }

theorem Follows.readRest (h : Follows lines entries problems reader later) (rules : CommentRules)
    (line : Line) (text : List Char) :
    Follows lines entries problems (reader.readRest rules line text)
      (later.readRest rules (line.later lines) text) := by
  fun_induction Reader.readRest rules line reader text generalizing later with
  | case1 reader text hblock hfind =>
      rw [readRest_outside (h.block.trans hblock) hfind]
      exact h
  | case2 reader text hblock block rest hfind hlength ih =>
      rw [readRest_opening (h.block.trans hblock) hfind]
      exact ih { h with block := rfl }
  | case3 reader text block hblock piece rest hcut hlength ih =>
      rw [readRest_inside (h.block.trans hblock), hcut]
      exact ih ((h.append line piece).endStatement rules block false)
  | case4 reader text block hblock piece rest hcut hlength hafter ih =>
      rw [readRest_inside (h.block.trans hblock), hcut]
      exact ih ((h.append line piece).endBlock rules block)
  | case5 reader text block hblock piece hcut =>
      have hpiece := h.append line piece
      rw [readRest_inside (h.block.trans hblock), hcut]
      exact { hpiece with
        deferred := congrArg (fun pending => (Statement.read? pending).isSome) hpiece.pending }

/-- **Both read the same line alike.** -/
theorem Follows.readLine (h : Follows lines entries problems reader later) (rules : CommentRules)
    (line : Line) :
    Follows lines entries problems (reader.readLine rules line)
      (later.readLine rules (line.later lines)) :=
  (h.resume rules line.code.toList).readRest rules line line.code.toList

/-- **Both read the same lines alike.** -/
theorem Follows.readLines (h : Follows lines entries problems reader later) (rules : CommentRules)
    (text : List Line) :
    Follows lines entries problems (text.foldl (Reader.readLine rules) reader)
      ((text.map (Line.later lines)).foldl (Reader.readLine rules) later) := by
  induction text generalizing reader later with
  | nil => exact h
  | cons line text ih => exact ih (h.readLine rules line)

/-- At the end of their texts, both say the same if both have opened a block. -/
theorem Follows.finish (h : Follows lines entries problems reader later) (rules : CommentRules)
    (hsaw : reader.sawBlock = true ∧ later.sawBlock = true) (lastLine : Nat)
    (isBlank laterBlank : Bool) :
    Follows lines entries problems (reader.finish rules lastLine isBlank)
      (later.finish rules (lastLine + lines) laterBlank) := by
  unfold Reader.finish
  rw [h.block]
  split
  · rename_i block hblock
    have hended : Follows lines entries problems
        (if reader.deferred then reader.endStatement rules block true
          else if Text.allBlank reader.pending then reader
          else reader.keepUnread (Text.trim reader.pending) .blockEnded)
        (if reader.deferred then later.endStatement rules block true
          else if Text.allBlank reader.pending then later
          else later.keepUnread (Text.trim reader.pending) .blockEnded) := by
      split
      · exact h.endStatement rules block true
      · split
        · exact h
        · rename_i hfilled
          exact h.keepUnread (h.pendingLine (Bool.eq_false_iff.mpr hfilled)) _ _
    rw [h.deferred, h.pending]
    exact hended.report _
  · rw [if_pos (by rw [hsaw.1, Bool.true_or]), if_pos (by rw [hsaw.2, Bool.true_or])]
    exact h

end Reader

/-! ## Sources -/

/-- A block is opened in one of the lines. -/
def Opens (rules : CommentRules) (source : String) : Prop :=
  ∃ line ∈ lines rules source, HoldsKeyword line.code.toList

instance (rules : CommentRules) (source : String) : Decidable (Opens rules source) :=
  inferInstanceAs (Decidable (∃ line ∈ lines rules source, HoldsKeyword line.code.toList))

/-- A source that opens a block, closes all its blocks, and does not end in a comment that goes on
in the next line. -/
structure IsWhole (vendor : Vendor) (source : String) : Prop where
  opens : Opens vendor.commentRules source
  closed : ((lines vendor.commentRules source).foldl
    (Reader.readLine vendor.commentRules) {}).block = none
  blockComment : modeAfter vendor.commentRules .code none source.toList ≠ .blockComment
  braces : modeAfter vendor.commentRules .code none source.toList ≠ .braces

instance (vendor : Vendor) (source : String) : Decidable (IsWhole vendor source) :=
  decidable_of_iff
    (Opens vendor.commentRules source ∧
      ((lines vendor.commentRules source).foldl
        (Reader.readLine vendor.commentRules) {}).block = none ∧
      modeAfter vendor.commentRules .code none source.toList ≠ .blockComment ∧
      modeAfter vendor.commentRules .code none source.toList ≠ .braces)
    ⟨fun ⟨hopens, hclosed, hcomment, hbraces⟩ => ⟨hopens, hclosed, hcomment, hbraces⟩,
      fun h => ⟨h.opens, h.closed, h.blockComment, h.braces⟩⟩

/-- Behind the line break the next text begins as code. -/
theorem IsWhole.atLineBreak {source : String} (h : IsWhole vendor source) :
    (modeAfter vendor.commentRules .code none source.toList).atLineBreak = .code := by
  have hmark := @modeAfter_ne_mark vendor .code source.toList trivial
  have hcomment := h.blockComment
  have hbraces := h.braces
  revert hmark hcomment hbraces
  cases modeAfter vendor.commentRules .code none source.toList with
  | code => exact fun _ _ _ => rfl
  | lineComment => exact fun _ _ _ => rfl
  | quoted quote escaped => exact fun _ _ _ => rfl
  | blockComment => exact fun _ hcomment _ => absurd rfl hcomment
  | braces => exact fun _ _ hbraces => absurd rfl hbraces
  | mark next => exact fun hmark _ _ => absurd rfl (hmark next)

/-- **The lines of two texts** are those of the first, and those of the second further down. -/
theorem IsWhole.lines_append {source : String} (h : IsWhole vendor source) (other : String) :
    lines vendor.commentRules (source ++ "\n" ++ other) =
      lines vendor.commentRules source ++ (lines vendor.commentRules other).map
        (Line.later (lines vendor.commentRules source).length) := by
  have htext : (source ++ "\n" ++ other).toList = source.toList ++ '\n' :: other.toList := by
    simp
  have hstart : Draft.start ((Draft.start 1).number + source.toList.count '\n' + 1) =
      (Draft.start 1).later (lines vendor.commentRules source).length := by
    rw [length_lines, Nat.add_assoc]
    rfl
  rw [lines, htext, linesFrom_append_newline, h.atLineBreak, hstart, linesFrom_later]
  rfl

theorem lastLine_append (front : List Line) {back : List Line} (hback : back ≠ []) (number : Nat) :
    lastLine (front ++ back.map (Line.later number)) = lastLine back + number := by
  have hlast : (front ++ back.map (Line.later number)).getLast? =
      some ((back.getLast hback).later number) := by
    rw [List.getLast?_append, List.getLast?_map, List.getLast?_eq_some_getLast hback]
    rfl
  rw [lastLine, lastLine, hlast, List.getLast?_eq_some_getLast hback]
  rfl

/-- **What is found in two sources**, one behind the other, is what is found in the first, and what
is found in the second with its lines counted on; so are the problems. -/
theorem extract_append {source other : String} (h : IsWhole vendor source)
    (hother : Opens vendor.commentRules other) :
    extract vendor (source ++ "\n" ++ other) =
      ⟨vendor,
        (extract vendor source).entries ++ (extract vendor other).entries.map
          (Entry.later (lines vendor.commentRules source).length),
        (extract vendor source).diagnostics ++ (extract vendor other).diagnostics.map
          (Diagnostic.later (lines vendor.commentRules source).length)⟩ := by
  have hsettled := Reader.isSettled_readLines _ _ h.closed
  have hsaw : ((lines vendor.commentRules source).foldl (Reader.readLine vendor.commentRules)
      {}).sawBlock = true := Reader.sawBlock_readLines Reader.isSettled_start rfl h.opens
  have hotherSaw : ((lines vendor.commentRules other).foldl (Reader.readLine vendor.commentRules)
      {}).sawBlock = true := Reader.sawBlock_readLines Reader.isSettled_start rfl hother
  have hstart : Reader.Follows (lines vendor.commentRules source).length
      (extract vendor source).entries (extract vendor source).diagnostics {}
      ((lines vendor.commentRules source).foldl (Reader.readLine vendor.commentRules) {}) := by
    -- At the end of the first source nothing is left to say.
    have hfinish : extract vendor source = ⟨vendor, _, _⟩ := rfl
    rw [Reader.finish, h.closed, hsaw] at hfinish
    rw [hfinish]
    exact ⟨h.closed, hsettled.pending, hsettled.pendingComment, hsettled.deferred,
      fun hfilled => absurd hfilled (by simp [Text.allBlank]), (List.append_nil _).symm,
      (List.append_nil _).symm⟩
  have hread := hstart.readLines vendor.commentRules (lines vendor.commentRules other)
  have hlaterSaw := (Reader.grows_readLines _ vendor.commentRules
    ((lines vendor.commentRules other).map
      (Line.later (lines vendor.commentRules source).length))).sawBlock hsaw
  have hfinish := hread.finish vendor.commentRules ⟨hotherSaw, hlaterSaw⟩
    (lastLine (lines vendor.commentRules other)) (Text.isAllBlank other)
    (Text.isAllBlank (source ++ "\n" ++ other))
  have hne : lines vendor.commentRules other ≠ [] := linesFrom_ne_nil _ _ _ _
  rw [← lastLine_append (lines vendor.commentRules source) hne, ← List.foldl_append,
    ← h.lines_append] at hfinish
  exact congr (congrArg (Extraction.mk vendor) hfinish.entries) hfinish.diagnostics

/-- A block with a text that cannot be read, and a line behind it in which a comment begins. -/
def tankSource : String :=
  "VAR\nTank 5;\nEND_VAR // of"

/-- A block that is not closed, with a declaration that lacks its semicolon. -/
def valveSource : String :=
  "VAR_OUTPUT\nValve : BOOL\nPump : INT;"

theorem extract_tankSource_valveSource :
    extract .siemens (tankSource ++ "\n" ++ valveSource) =
      ⟨.siemens,
        [.unread 2 "Tank 5" .noDeclaration,
          .declared ⟨"Valve", "BOOL", "", "", "", ⟨.output, false⟩, 5⟩,
          .declared ⟨"Pump", "INT", "", "", "", ⟨.output, false⟩, 6⟩],
        [{ severity := .error, code := .partialDeclaration, line := some 2,
           message := "cannot read declaration 'Tank 5': expected 'name : TYPE'" },
         { severity := .warning, code := .partialDeclaration, line := some 5,
           message := "declaration 'Valve : BOOL' is missing its ';'" },
         { severity := .error, code := .unparseable, line := some 6,
           message := "declaration block is not closed by END_VAR" }]⟩ := by
  have hwhole : IsWhole .siemens tankSource := by
    decide +kernel
  have hopens : Opens Vendor.siemens.commentRules valveSource := by
    decide +kernel
  have hentries : (extract .siemens tankSource).entries ++
      (extract .siemens valveSource).entries.map
        (Entry.later (lines Vendor.siemens.commentRules tankSource).length) =
        [.unread 2 "Tank 5" .noDeclaration,
          .declared ⟨"Valve", "BOOL", "", "", "", ⟨.output, false⟩, 5⟩,
          .declared ⟨"Pump", "INT", "", "", "", ⟨.output, false⟩, 6⟩] := by
    decide +kernel
  have hdiagnostics : (extract .siemens tankSource).diagnostics ++
      (extract .siemens valveSource).diagnostics.map
        (Diagnostic.later (lines Vendor.siemens.commentRules tankSource).length) =
        [{ severity := .error, code := .partialDeclaration, line := some 2,
           message := "cannot read declaration 'Tank 5': expected 'name : TYPE'" },
         { severity := .warning, code := .partialDeclaration, line := some 5,
           message := "declaration 'Valve : BOOL' is missing its ';'" },
         { severity := .error, code := .unparseable, line := some 6,
           message := "declaration block is not closed by END_VAR" }] := by
    decide +kernel
  exact (extract_append hwhole hopens).trans
    (congr (congrArg (Extraction.mk .siemens) hentries) hdiagnostics)

end Source

end PlcTags
