import PlcTags.Proofs.Source.Canonical
import PlcTags.Proofs.Source.LineBreak

/-!
# What a slip costs

Two slips in a canonical source do not reach beyond their own line.  A declaration without its
semicolon is declared all the same, with a warning (`extract_clipped`): the line leaves it open, and
the next one, which cannot go on with it, ends it before anything else is read.  A line that is no
declaration is kept as one that could not be read, with an error, and what stands below it is found
one line further down (`extract_insert`).

In both cases each line leaves the reader as the line of a declaration does, with no statement open,
so that the source is read line by line (`extract_of_script`).
-/

namespace PlcTags.Source

variable {vendor : Vendor}

/-! ## Lines of declarations -/

namespace Clause

/-- In every line stands a declaration. -/
def script : Script Clause where
  text := text
  height _ := 1
  entries found := found.declared.map .declared
  problems _ := []
  MayFollow _ := True

/-- **The line of a declaration** adds what is declared in it. -/
theorem isRead {clause : Clause} (h : clause.IsWellFormed vendor) :
    script.IsRead vendor clause where
  mayFollow _ := trivial
  reads {before block} hsettled hblock number rest _ := by
    have hnoted := isWellFormed_noted h
    obtain ⟨hentries, hproblems⟩ := @Numbered.entries_of_not_strays vendor
      ⟨number, block, clause.noted⟩ hnoted (not_strays_noted clause)
    have hadd : before.add vendor ⟨number, block, clause.noted⟩ =
        script.add before ⟨number, block, clause⟩ := by
      rw [Reader.add, hentries, hproblems, declarations_noted h]
      rfl
    have hread := Reader.readsAs_line hnoted hsettled hblock number rest
    rw [text_noted, hadd] at hread
    exact hread

end Clause

/-! ## Lines without a semicolon -/

/-- Code without a semicolon is a line too, if blanks keep its comment apart from it. -/
theorem Passes.linesFrom_unended {code gap : List Char} (h : Passes vendor.commentRules code)
    (hfilled : Text.allBlank code = false) (hgap : IsGap gap) (number : Nat)
    {comment : Option (List Char)} (hcomment : ∀ text ∈ comment, '\n' ∉ text)
    (hapart : comment = none ∨ gap ≠ []) (rest : List Char) :
    linesFrom vendor.commentRules .code (.start number)
        (code ++ (gap ++ (Spelled.commentText comment ++ '\n' :: rest))) =
      ⟨number, String.ofList (code ++ gap), String.ofList (Text.squeeze (comment.getD []))⟩ ::
        linesFrom vendor.commentRules .code (.start (number + 1)) rest := by
  have hends : EndsCode (gap ++ (Spelled.commentText comment ++ '\n' :: rest)) := by
    cases gap with
    | nil =>
        obtain rfl := hapart.resolve_right fun hne => hne rfl
        rintro c ⟨⟩
        decide +kernel
    | cons d gap =>
        refine endsCode_of_isSeparator ?_
        rintro c ⟨⟩
        exact (hgap.isSeparator d List.mem_cons_self).1
  have hfilled : Text.allBlank (code ++ gap) = false := by
    have hcode : code.all Text.isBlank = false := hfilled
    rw [Text.allBlank, List.all_append, hcode, Bool.false_and]
  rw [h.lines _ _ hends, linesFrom_of_isCode _ (isCode_of_forall (by decide) hgap),
    ← Spelled.linesFrom_commentText hfilled number hcomment]
  simp [Draft.start]

/-- No piece ends in such a line. -/
theorem Passes.cut_unended {rules : CommentRules} {code gap : List Char} (h : Passes rules code)
    (hgap : IsGap gap) : Source.cut rules (code ++ gap) = .lineEnd (code ++ gap) := by
  have hends : EndsCode gap :=
    endsCode_of_isSeparator fun c hc => (hgap.isSeparator c (List.mem_of_head? hc)).1
  have hblank : Text.allBlank gap = true := List.all_eq_true.mpr hgap.isBlank
  rw [Source.cut, h.cut [] gap endsCode_nil hends, cutFrom_of_allBlank hblank, List.append_nil,
    List.reverse_reverse]

namespace Reader

variable {reader : Reader} {rules : CommentRules} {block : Block} {text : List Char}

/-- The warning about a statement that lacks its semicolon. -/
def unended (number : Nat) (text : List Char) : Diagnostic :=
  { severity := .warning, code := .partialDeclaration, line := some number,
    message := "declaration '" ++ String.ofList text ++ "' is missing its ';'" }

/-- The reader with a statement that could be complete. -/
def defer (reader : Reader) (number : Nat) (text : List Char) (comment : String) : Reader :=
  { reader with
    pending := text, pendingLine := number, pendingComment := comment, deferred := true }

/-- **A line without a semicolon** leaves its statement open. -/
theorem IsSettled.readLine_unended {code : List Char} {line : Line} (h : reader.IsSettled)
    (hblock : reader.block = some block) (hcut : cut rules line.code.toList = .lineEnd code)
    (htrim : Text.trim code = text) (hfilled : Text.allBlank text = false)
    (hread : (Statement.read? text).isSome = true) :
    reader.readLine rules line = reader.defer line.number text line.comment := by
  rw [Reader.readLine, h.resume, readRest_inside hblock, hcut]
  simp only [h.append_code htrim hfilled, hread]
  rfl

/-- **The next line ends the statement** before it is read, if it does not go on with it. -/
theorem IsSettled.readLine_defer (h : reader.IsSettled) (hblock : reader.block = some block)
    (htrim : Text.trim text = text) (hfilled : Text.allBlank text = false) (number : Nat)
    (comment : String) {line : Line} (hcode : Text.allBlank line.code.toList = false)
    (hnot : (reader.defer number text comment).continues line.code.toList = false) :
    (reader.defer number text comment).readLine rules line =
      ((reader.report (unended number text)).addRead number text
        (readDeclarations rules text block comment number)).readLine rules line := by
  have hopen : (reader.defer number text comment).block = some block := hblock
  have hreported : (reader.report (unended number text)).IsSettled :=
    ⟨h.pending, h.pendingComment, h.deferred⟩
  have hundeferred : ({ reader.defer number text comment with deferred := false } : Reader) =
      { reader with pending := text, pendingLine := number, pendingComment := comment } := by
    rw [defer, ← h.deferred]
  rw [Reader.readLine, resume_of_deferred hopen rfl hcode, hnot, if_neg Bool.false_ne_true,
    hundeferred, endStatement_unterminated _ _ hfilled, Reader.readLine,
    (hreported.addRead number text _).resume, ← hreported.endStatement_text htrim hfilled]
  dsimp only
  rw [htrim]
  rfl

end Reader

/-! ### The line behind -/

/-- A text that begins like a name. -/
def BeginsName (text : List Char) : Prop :=
  ∃ c rest, text = c :: rest ∧ isNameChar c = true

theorem not_isBlank_of_isNameChar {c : Char} (h : isNameChar c = true) :
    Text.isBlank c = false := by
  refine Bool.eq_false_iff.mpr fun hblank => ?_
  have hname := (spec_of_isBlank hblank).2.1
  rw [continuesName_of_isNameChar h] at hname
  cases hname

theorem IsName.beginsName {name : String} (h : IsName name) (rest : List Char) :
    BeginsName (name.toList ++ rest) := by
  obtain ⟨c, tail, hcons, -⟩ := h.exists_cons
  exact ⟨c, tail ++ rest, by rw [hcons, List.cons_append],
    h.isNameChar.2 c (hcons ▸ List.mem_cons_self)⟩

theorem beginsName_endVar (rest : List Char) : BeginsName (endVar ++ rest) :=
  ⟨'E', _, rfl, by decide⟩

/-- So does the code of its first line. -/
theorem BeginsName.exists_linesFrom {text : List Char} (h : BeginsName text) (vendor : Vendor)
    (number : Nat) : ∃ c, isNameChar c = true ∧ ∃ code comment more,
      linesFrom vendor.commentRules .code (.start number) text =
        ⟨number, String.ofList (c :: code), comment⟩ :: more := by
  obtain ⟨c, rest, rfl, hc⟩ := h
  have hcode : isCode vendor.commentRules rest.head? [c] = true :=
    isCode_of_forall (by decide) (List.forall_mem_singleton.mpr hc)
  have hfirst := linesFrom_of_isCode (.start number) hcode
  obtain ⟨code, comment, more, hlines⟩ :=
    Source.exists_linesFrom vendor.commentRules .code ⟨number, [c], [], false⟩ rest
  exact ⟨c, hc, code, comment, more, hfirst.trans hlines⟩

/-! ### Declarations -/

namespace Clause

/-- The line up to its semicolon. -/
def statement (clause : Clause) : List Char :=
  clause.first.toList ++ clause.others.flatMap (fun name => ", ".toList ++ name.toList) ++
    (clause.address.elim [] fun address => " AT ".toList ++ address.toList) ++
    " : ".toList ++ clause.typeName.toList ++
    (clause.default.elim [] fun default => " := ".toList ++ default.written)

/-- What stands behind the semicolon. -/
def remark (clause : Clause) : List Char :=
  clause.description.elim [] fun description => " // ".toList ++ description.toList

theorem text_eq (clause : Clause) : clause.text = clause.statement ++ ';' :: clause.remark := by
  simp [text, statement, remark]

theorem remark_noted (clause : Clause) :
    clause.spelled.afterSemicolon ++ Spelled.commentText clause.noted.comment = clause.remark := by
  rw [spelled, noted, remark]
  cases clause.description <;> rfl

theorem statement_spelled (clause : Clause) : clause.spelled.statement = clause.statement := by
  have hspelled : clause.noted.text =
      clause.spelled.statement ++ ';' :: (clause.spelled.afterSemicolon ++
        Spelled.commentText clause.noted.comment) := by
    simp [Noted.text, Spelled.line, noted, spelled]
  rw [text_noted, text_eq, remark_noted] at hspelled
  exact (List.append_cancel_right hspelled).symm

theorem passes_statement {clause : Clause} (h : clause.IsWellFormed vendor) :
    Passes vendor.commentRules clause.statement := by
  have hcode : clause.spelled.code = clause.spelled.statement := List.append_nil _
  rw [← statement_spelled, ← hcode]
  exact Spelled.passes_code (isWellFormed_noted h).spelled

theorem allBlank_statement {clause : Clause} (h : clause.IsWellFormed vendor) :
    Text.allBlank clause.statement = false := by
  rw [← statement_spelled]
  exact Spelled.allBlank_statement (isWellFormed_noted h).spelled

theorem trim_statement {clause : Clause} (h : clause.IsWellFormed vendor) :
    Text.trim clause.statement = clause.statement := by
  rw [← statement_spelled]
  exact Spelled.trim_statement (isWellFormed_noted h).spelled

/-- **Without its semicolon**, the statement is left open by its line. -/
theorem readLines_unended {clause : Clause} (h : clause.IsWellFormed vendor) {before : Reader}
    {block : Block} (hsettled : before.IsSettled) (hblock : before.block = some block)
    (number : Nat) (rest : List Char) :
    (linesFrom vendor.commentRules .code (.start number)
        (clause.statement ++ clause.remark ++ '\n' :: rest)).foldl
        (Reader.readLine vendor.commentRules) before =
      (linesFrom vendor.commentRules .code (.start (number + 1)) rest).foldl
        (Reader.readLine vendor.commentRules)
        (before.defer number clause.statement clause.noted.description) := by
  have hspelled : clause.spelled.IsWellFormed vendor := (isWellFormed_noted h).spelled
  have hpasses := passes_statement h
  have hfilled := allBlank_statement h
  have htrim :
      Text.trim (clause.statement ++ clause.spelled.afterSemicolon) = clause.statement := by
    rw [Text.trim_append_blank _ hspelled.afterSemicolon.isBlank, trim_statement h]
  have hapart : clause.noted.comment = none ∨ clause.spelled.afterSemicolon ≠ [] := by
    rw [noted, spelled]
    cases clause.description with
    | none => exact .inl rfl
    | some description => exact .inr (List.cons_ne_nil _ _)
  have hcut : cut vendor.commentRules
      (String.ofList (clause.statement ++ clause.spelled.afterSemicolon)).toList =
        .lineEnd (clause.statement ++ clause.spelled.afterSemicolon) := by
    rw [String.toList_ofList]
    exact hpasses.cut_unended hspelled.afterSemicolon
  have hread : (Statement.read? clause.statement).isSome = true :=
    statement_spelled clause ▸ Spelled.isSome_read?_statement hspelled
  have hstep : before.readLine vendor.commentRules
      ⟨number, String.ofList (clause.statement ++ clause.spelled.afterSemicolon),
        clause.noted.description⟩ =
      before.defer number clause.statement clause.noted.description :=
    hsettled.readLine_unended hblock hcut htrim hfilled hread
  have hline := hpasses.linesFrom_unended hfilled hspelled.afterSemicolon number
    (isWellFormed_noted h).comment hapart rest
  rw [← remark_noted, List.append_assoc, List.append_assoc, hline, List.foldl_cons, ← hstep]
  rfl

/-- **A statement that lacks its semicolon is ended** by the line that follows it. -/
theorem readLines_defer {clause : Clause} (h : clause.IsWellFormed vendor)
    (hends : ∀ default ∈ clause.default, ¬ default.EndsWithSign) {before : Reader} {block : Block}
    (hsettled : before.IsSettled) (hblock : before.block = some block) (number : Nat)
    {rest : List Char} (hrest : BeginsName rest) :
    (linesFrom vendor.commentRules .code (.start (number + 1)) rest).foldl
        (Reader.readLine vendor.commentRules)
        (before.defer number clause.statement clause.noted.description) =
      (linesFrom vendor.commentRules .code (.start (number + 1)) rest).foldl
        (Reader.readLine vendor.commentRules)
        ((before.report (Reader.unended number clause.statement)).addRead number clause.statement
          (readDeclarations vendor.commentRules clause.statement block clause.noted.description
            number)) := by
  have hspelled : clause.spelled.IsWellFormed vendor := (isWellFormed_noted h).spelled
  have hsign : ∀ initial ∈ clause.spelled.initial, ¬ initial.default.EndsWithSign := by
    intro initial hinitial
    obtain ⟨default, hdefault, rfl⟩ := Option.map_eq_some_iff.mp hinitial
    exact hends default hdefault
  have hnot := Spelled.statement_not_endsWithSign hspelled hsign
  rw [statement_spelled] at hnot
  -- The next line begins with a letter of a name, so the statement does not go on there.
  obtain ⟨c, hc, code, remark, more, hlines⟩ := hrest.exists_linesFrom vendor (number + 1)
  have hblank := not_isBlank_of_isNameChar hc
  rw [hlines, List.foldl_cons, List.foldl_cons,
    hsettled.readLine_defer hblock (trim_statement h) (allBlank_statement h) number _ ?_ ?_]
  · rw [String.toList_ofList, Text.allBlank, List.all_cons, hblank, Bool.false_and]
  · have hcolon : (':' == c) = false :=
      beq_false_of_ne (ne_of_isNameChar hc (by decide)).symm
    rw [String.toList_ofList, Reader.continues, Text.trimStart_of_not_blank _ hblank,
      List.isPrefixOf, hcolon, Bool.false_and, Bool.false_or]
    exact Bool.eq_false_iff.mpr hnot

theorem readDeclarations_statement {clause : Clause} (h : clause.IsWellFormed vendor)
    (number : Nat) (block : Block) :
    readDeclarations vendor.commentRules clause.statement block clause.noted.description number =
      .ok (Numbered.declared ⟨number, block, clause⟩) := by
  rw [← declarations_noted h, ← statement_spelled]
  exact Spelled.readDeclarations_statement (isWellFormed_noted h).spelled
    (not_strays_noted clause) _ _ _

end Clause

/-- A declaration in its line, perhaps without its semicolon. -/
structure Clipped where
  clause : Clause
  ended : Bool
  deriving DecidableEq, Repr

/-- The warning about a line, if its semicolon is missing. -/
def Numbered.warnings (found : Numbered Clipped) : List Diagnostic :=
  if found.line.ended then []
  else
    [{ severity := .warning, code := .partialDeclaration, line := some found.number,
       message := "declaration '" ++ String.ofList found.line.clause.statement ++
         "' is missing its ';'" }]

namespace Clipped

def text (clipped : Clipped) : List Char :=
  if clipped.ended then clipped.clause.text
  else clipped.clause.statement ++ clipped.clause.remark

/-- Without its semicolon, a declaration must not end like one whose default is still to come. -/
structure IsWellFormed (vendor : Vendor) (clipped : Clipped) : Prop where
  clause : clipped.clause.IsWellFormed vendor
  unended : clipped.ended = false → ∀ default ∈ clipped.clause.default, ¬ default.EndsWithSign

instance (vendor : Vendor) (clipped : Clipped) : Decidable (clipped.IsWellFormed vendor) :=
  decidable_of_iff
    (clipped.clause.IsWellFormed vendor ∧
      (clipped.ended = false → ∀ default ∈ clipped.clause.default, ¬ default.EndsWithSign))
    ⟨fun ⟨hclause, hunended⟩ => ⟨hclause, hunended⟩, fun h => ⟨h.clause, h.unended⟩⟩

/-- In every line stands a declaration, and behind it another one or the end of the block. -/
def script : Script Clipped where
  text := text
  height _ := 1
  entries found := (found.map clause).declared.map .declared
  problems := Numbered.warnings
  MayFollow := BeginsName

/-- **A line without its semicolon** declares what it would declare with it. -/
theorem isRead {clipped : Clipped} (h : clipped.IsWellFormed vendor) :
    script.IsRead vendor clipped := by
  obtain ⟨clause, ended⟩ := clipped
  refine ⟨fun rest => ?_, fun {before block} hsettled hblock number rest hrest => ?_⟩
  · have hname := (h.clause.names _ List.mem_cons_self).beginsName
    cases ended with
    | true => simpa [script, text, Clause.text] using hname _
    | false => simpa [script, text, Clause.statement] using hname _
  · cases ended with
    | true =>
        exact (Clause.isRead h.clause).reads hsettled hblock number rest trivial
    | false =>
        have hopen := Clause.readLines_unended h.clause hsettled hblock number rest
        have hend := Clause.readLines_defer h.clause (h.unended rfl) hsettled hblock number hrest
        rw [Clause.readDeclarations_statement h.clause] at hend
        exact hopen.trans hend

end Clipped

/-- **A missing semicolon costs no more than a warning.**  Whichever lines of a canonical source
lack theirs, the same is declared in the same lines, and there is one warning for each of them. -/
theorem extract_clipped {parts : List (Section Clipped)} {source other : String}
    (h : ∀ part ∈ parts, ∀ clipped ∈ part.lines, clipped.IsWellFormed vendor)
    (hsource : IsSource source
      (sourceText Clause.text (parts.map (Section.map Clipped.clause))))
    (hother : IsSource other (sourceText Clipped.text parts)) :
    extract vendor other =
      ⟨vendor, (extract vendor source).entries, (numbered 1 parts).flatMap Numbered.warnings⟩ := by
  have hwhole : ∀ part ∈ parts.map (Section.map Clipped.clause), ∀ clause ∈ part.lines,
      clause.IsWellFormed vendor := by
    intro part hpart clause hclause
    obtain ⟨part, hmem, rfl⟩ := List.mem_map.mp hpart
    obtain ⟨clipped, hclipped, rfl⟩ := List.mem_map.mp hclause
    exact (h part hmem clipped hclipped).clause
  have hread := @extract_of_script _ _ Clipped.script _ _
    (fun part hpart => ⟨fun clipped hmem => Clipped.isRead (h part hpart clipped hmem),
      beginsName_endVar⟩) hother
  rw [hread, extract_canonical hwhole hsource, numbered_map, List.flatMap_map, List.map_flatMap,
    numbered_eq_spread]
  rfl

/-- Two of three declarations lack their semicolon, one of them in front of the end of the block. -/
def clippedSections : List (Section Clipped) :=
  [⟨⟨.input, false⟩,
    [⟨⟨"Start", ["Stop"], some "I:1/0", "BOOL", some (.token "TRUE"), some "both"⟩, false⟩,
      ⟨⟨"Level", [], none, "INT", none, none⟩, true⟩,
      ⟨⟨"Text", [], none, "DINT", some (.literal "a := ;"), none⟩, false⟩]⟩]

def clippedSource : String :=
  "VAR_INPUT\nStart, Stop AT I:1/0 : BOOL := TRUE // both\nLevel : INT;\n" ++
    "Text : DINT := 'a := ;'\nEND_VAR"

def unclippedSource : String :=
  "VAR_INPUT\nStart, Stop AT I:1/0 : BOOL := TRUE; // both\nLevel : INT;\n" ++
    "Text : DINT := 'a := ;';\nEND_VAR"

theorem extract_clippedSource :
    extract .rockwell clippedSource =
      ⟨.rockwell, (extract .rockwell unclippedSource).entries,
        [{ severity := .warning, code := .partialDeclaration, line := some 2,
           message := "declaration 'Start, Stop AT I:1/0 : BOOL := TRUE' is missing its ';'" },
         { severity := .warning, code := .partialDeclaration, line := some 4,
           message := "declaration 'Text : DINT := 'a := ;'' is missing its ';'" }]⟩ := by
  have hparts : ∀ part ∈ clippedSections, ∀ clipped ∈ part.lines,
      clipped.IsWellFormed .rockwell := by
    decide
  have hsource : IsSource unclippedSource
      (sourceText Clause.text (clippedSections.map (Section.map Clipped.clause))) :=
    .inr (by decide +kernel)
  have hother : IsSource clippedSource (sourceText Clipped.text clippedSections) :=
    .inr (by decide +kernel)
  have hwarnings : (numbered 1 clippedSections).flatMap Numbered.warnings =
      [{ severity := .warning, code := .partialDeclaration, line := some 2,
         message := "declaration 'Start, Stop AT I:1/0 : BOOL := TRUE' is missing its ';'" },
       { severity := .warning, code := .partialDeclaration, line := some 4,
         message := "declaration 'Text : DINT := 'a := ;'' is missing its ';'" }] := by
    decide
  rw [← hwarnings]
  exact extract_clipped hparts hsource hother

/-! ## A line that is no declaration -/

/-! ### Numbers of lines -/

section

variable {α β : Type}

/-- The number of lines that a block takes. -/
def Section.height (part : Section α) : Nat :=
  part.lines.length + 2

/-- What stands in a line, so many lines further down. -/
def Numbered.later (lines : Nat) (found : Numbered α) : Numbered α :=
  { found with number := found.number + lines }

theorem numberedLines_append (block : Block) (number : Nat) (above below : List α) :
    numberedLines block number (above ++ below) =
      numberedLines block number above ++ numberedLines block (number + above.length) below := by
  induction above generalizing number with
  | nil => rfl
  | cons line above ih =>
      rw [List.cons_append, numberedLines, numberedLines, ih, List.length_cons, List.cons_append,
        Nat.add_assoc, Nat.add_comm 1]

theorem numbered_append (number : Nat) (front back : List (Section α)) :
    numbered number (front ++ back) =
      numbered number front ++ numbered (behind Section.height number front) back := by
  induction front generalizing number with
  | nil => rfl
  | cons part front ih =>
      rw [List.cons_append, numbered, numbered, ih, List.append_assoc]
      rfl

theorem numberedLines_later (block : Block) (number lines : Nat) (below : List α) :
    numberedLines block (number + lines) below =
      (numberedLines block number below).map (Numbered.later lines) := by
  induction below generalizing number with
  | nil => rfl
  | cons line below ih =>
      rw [numberedLines, numberedLines, Nat.add_right_comm, ih, List.map_cons]
      rfl

theorem numbered_later (number lines : Nat) (back : List (Section α)) :
    numbered (number + lines) back = (numbered number back).map (Numbered.later lines) := by
  induction back generalizing number with
  | nil => rfl
  | cons part back ih =>
      have hnext : number + lines + part.lines.length + 2 =
          number + part.lines.length + 2 + lines := by
        omega
      rw [numbered, numbered, hnext, ih, Nat.add_right_comm, numberedLines_later, List.map_append]

/-- A place between two lines of a block. -/
structure Spot (α : Type) where
  front : List (Section α)
  block : Block
  above : List α
  below : List α
  back : List (Section α)

namespace Spot

/-- The source with nothing in this place. -/
def parts (spot : Spot α) : List (Section α) :=
  spot.front ++ ⟨spot.block, spot.above ++ spot.below⟩ :: spot.back

/-- The source with a line in this place. -/
def insert (spot : Spot α) (line : α) : List (Section α) :=
  spot.front ++ ⟨spot.block, spot.above ++ line :: spot.below⟩ :: spot.back

/-- The number of this line. -/
def number (spot : Spot α) : Nat :=
  behind Section.height 1 spot.front + 1 + spot.above.length

def map (f : α → β) (spot : Spot α) : Spot β :=
  ⟨spot.front.map (Section.map f), spot.block, spot.above.map f, spot.below.map f,
    spot.back.map (Section.map f)⟩

theorem behind_map (f : α → β) (number : Nat) (parts : List (Section α)) :
    behind Section.height number (parts.map (Section.map f)) =
      behind Section.height number parts := by
  induction parts generalizing number with
  | nil => rfl
  | cons part parts ih =>
      rw [List.map_cons, behind, behind, ih, Section.height, Section.height, Section.map,
        List.length_map]

/-- What stands above the place. -/
def before (spot : Spot α) : List (Numbered α) :=
  numbered 1 spot.front ++
    numberedLines spot.block (behind Section.height 1 spot.front + 1) spot.above

/-- What stands below it. -/
def after (spot : Spot α) : List (Numbered α) :=
  numberedLines spot.block spot.number spot.below ++
    numbered (spot.number + spot.below.length + 1) spot.back

theorem numbered_parts (spot : Spot α) : numbered 1 spot.parts = spot.before ++ spot.after := by
  have hback : behind Section.height 1 spot.front + (spot.above ++ spot.below).length + 2 =
      spot.number + spot.below.length + 1 := by
    rw [number, List.length_append]
    omega
  rw [parts, numbered_append, numbered, numberedLines_append, hback, before, after,
    List.append_assoc, List.append_assoc]
  rfl

/-- **What stands below the line** moves down by one, and nothing else moves. -/
theorem numbered_insert (spot : Spot α) (f : α → β) (line : β) :
    numbered 1 ((spot.map f).insert line) =
      spot.before.map (Numbered.map f) ++ ⟨spot.number, spot.block, line⟩ ::
        (spot.after.map (Numbered.later 1)).map (Numbered.map f) := by
  have hback : behind Section.height 1 spot.front +
      (spot.above.map f ++ line :: spot.below.map f).length + 2 =
        spot.number + spot.below.length + 1 + 1 := by
    simp only [number, List.length_append, List.length_cons, List.length_map]
    omega
  have hbelow : numberedLines spot.block (spot.number + 1) (spot.below.map f) =
      ((numberedLines spot.block spot.number spot.below).map (Numbered.later 1)).map
        (Numbered.map f) := by
    rw [numberedLines_map, numberedLines_later]
    rfl
  rw [insert, numbered_append, numbered]
  dsimp only [map]
  rw [behind_map, hback, numbered_map, numberedLines_append, numberedLines_map, numberedLines,
    List.length_map, numbered_map, numbered_later, before, after, List.map_append, List.map_append,
    List.map_append, List.append_assoc, List.append_assoc, ← hbelow]
  rfl

/-- The line stands behind all lines above it, and in front of all those below. -/
theorem number_of_mem (spot : Spot α) :
    (∀ found ∈ spot.before, found.number < spot.number) ∧
      ∀ found ∈ spot.after, spot.number ≤ found.number := by
  have hsorted := pairwise_numbered 1 ((spot.map some).insert none)
  rw [numbered_insert] at hsorted
  obtain ⟨-, hbelow, hacross⟩ := List.pairwise_append.mp hsorted
  refine ⟨fun found hfound => ?_, fun found hfound => ?_⟩
  · exact hacross _ (List.mem_map_of_mem hfound) _ List.mem_cons_self
  · have hlater := (List.pairwise_cons.mp hbelow).1 _
      (List.mem_map_of_mem (List.mem_map_of_mem hfound))
    exact Nat.le_of_lt_succ hlater

end Spot

end

/-! ### Texts that cannot be read -/

/-- Why a text cannot be read as declarations, if it cannot. -/
def unreadable? (rules : CommentRules) (text : List Char) : Option Unreadable :=
  match readDeclarations rules text ⟨.plain, false⟩ "" 0 with
  | .ok _ => none
  | .error reason => some reason

/-- It cannot be read wherever it stands. -/
theorem readDeclarations_of_unreadable? {rules : CommentRules} {text : List Char}
    {reason : Unreadable} (h : unreadable? rules text = some reason) (block : Block)
    (comment : String) (line : Nat) :
    readDeclarations rules text block comment line = .error reason := by
  obtain ⟨outcome, heq⟩ := exists_readDeclarations rules text
  rw [unreadable?, heq] at h
  rw [heq]
  cases outcome with
  | ok declarations => cases h
  | error other => exact congrArg Except.error (Option.some.inj h)

/-- A line of a block: a declaration, or a text that cannot be read, for this reason. -/
inductive Mixed where
  | sound (clause : Clause)
  | foreign (text : List Char) (reason : Unreadable)

namespace Mixed

def text : Mixed → List Char
  | sound clause => clause.text
  | foreign text _ => text ++ [';']

/-- A text that is no declaration must be code, without the end of a statement or of a block. -/
def IsWellFormed (vendor : Vendor) : Mixed → Prop
  | sound clause => clause.IsWellFormed vendor
  | foreign text reason =>
    IsPlain vendor.commentRules text ∧ Text.allBlank text = false ∧
      unreadable? vendor.commentRules (Text.trim text) = some reason

def entries (found : Numbered Mixed) : List Entry :=
  match found.line with
  | sound clause => (Numbered.declared ⟨found.number, found.block, clause⟩).map .declared
  | foreign text reason => [.unread found.number (String.ofList (Text.trim text)) reason]

def problems (found : Numbered Mixed) : List Diagnostic :=
  match found.line with
  | sound _ => []
  | foreign text reason =>
    [{ severity := .error, code := .partialDeclaration, line := some found.number,
       message := "cannot read declaration '" ++ String.ofList (Text.trim text) ++ "': " ++
         reason.message }]

/-- What cannot be read is kept, and reported. -/
def script : Script Mixed where
  text := text
  height _ := 1
  entries := entries
  problems := problems
  MayFollow _ := True

theorem flatMap_entries (founds : List (Numbered Clause)) :
    (founds.map (Numbered.map sound)).flatMap entries =
      founds.flatMap fun found => found.declared.map .declared := by
  rw [List.flatMap_map]
  rfl

theorem flatMap_problems (founds : List (Numbered Clause)) :
    (founds.map (Numbered.map sound)).flatMap problems = [] := by
  rw [List.flatMap_map]
  exact List.flatMap_eq_nil_iff.mpr fun found _ => rfl

/-- **A text that cannot be read** leaves nothing behind in the reader. -/
theorem isRead {mixed : Mixed} (h : mixed.IsWellFormed vendor) : script.IsRead vendor mixed := by
  refine ⟨fun _ => trivial, fun {before block} hsettled hblock number rest _ => ?_⟩
  cases mixed with
  | sound clause =>
      exact (Clause.isRead h).reads hsettled hblock number rest trivial
  | foreign text reason =>
      obtain ⟨hplain, hfilled, hreason⟩ := h
      have hgap : IsGap [] := List.forall_mem_nil _
      have hlines := Spelled.linesFrom_commented hplain.passes hgap number
        (fun text htext => absurd htext (Option.not_mem_none text)) rest
      have hcut : cut vendor.commentRules (String.ofList (text ++ [';'])).toList =
          .semicolon text [] := by
        rw [String.toList_ofList]
        exact cut_semicolon hplain.passes []
      have hstep : before.readLine vendor.commentRules ⟨number, String.ofList (text ++ [';']), ""⟩ =
          before.addRead number (Text.trim text)
            (readDeclarations vendor.commentRules (Text.trim text) block "" number) :=
        hsettled.readLine_semicolon hblock hcut hgap (cut_gap hgap) rfl
          (by rw [Text.allBlank_trim, hfilled])
      rw [readDeclarations_of_unreadable? hreason] at hstep
      have hadd : script.add before ⟨number, block, .foreign text reason⟩ =
          before.addRead number (Text.trim text) (.error reason) := rfl
      rw [hadd, ← hstep]
      exact congrArg _ hlines

end Mixed

/-! ### Sources -/

theorem line_of_mem_declared {found : Numbered Clause} :
    ∀ entry ∈ found.declared.map Entry.declared, entry.line = found.number := by
  intro entry hentry
  obtain ⟨declaration, hmem, rfl⟩ := List.mem_map.mp hentry
  obtain ⟨name, -, rfl⟩ := List.mem_map.mp hmem
  rfl

/-- What is declared in a line that moves down moves down with it. -/
theorem declared_later (lines : Nat) (found : Numbered Clause) :
    (found.later lines).declared.map Entry.declared =
      (found.declared.map Entry.declared).map (Entry.later lines) := by
  rw [Numbered.declared, Numbered.declared, List.map_map, List.map_map, List.map_map]
  rfl

/-- What is found on either side of a line is told by the numbers of the lines. -/
theorem filter_entries {front back : List Entry} {number : Nat}
    (hfront : ∀ entry ∈ front, entry.line < number) (hback : ∀ entry ∈ back, number ≤ entry.line) :
    (front ++ back).filter (fun entry => entry.line < number) = front ∧
      (front ++ back).filter (fun entry => number ≤ entry.line) = back := by
  have hbefore : front.filter (fun entry => entry.line < number) = front ∧
      back.filter (fun entry => entry.line < number) = [] :=
    ⟨List.filter_eq_self.mpr fun entry hmem => decide_eq_true (hfront entry hmem),
      List.filter_eq_nil_iff.mpr fun entry hmem => by simpa using hback entry hmem⟩
  have hafter : front.filter (fun entry => number ≤ entry.line) = [] ∧
      back.filter (fun entry => number ≤ entry.line) = back :=
    ⟨List.filter_eq_nil_iff.mpr fun entry hmem => by simpa using hfront entry hmem,
      List.filter_eq_self.mpr fun entry hmem => decide_eq_true (hback entry hmem)⟩
  rw [List.filter_append, List.filter_append, hbefore.1, hbefore.2, hafter.1, hafter.2,
    List.append_nil, List.nil_append]
  exact ⟨rfl, rfl⟩

/-- **A statement that cannot be read stays by itself.**  If it is inserted between two lines of a
canonical source, it is kept and reported there; everything above it is found as before, and
everything below it one line further down. -/
theorem extract_insert {spot : Spot Clause} {text : List Char} {reason : Unreadable}
    {source other : String}
    (h : ∀ part ∈ spot.parts, ∀ clause ∈ part.lines, clause.IsWellFormed vendor)
    (hplain : IsPlain vendor.commentRules text) (hfilled : Text.allBlank text = false)
    (hreason : unreadable? vendor.commentRules (Text.trim text) = some reason)
    (hsource : IsSource source (sourceText Clause.text spot.parts))
    (hother : IsSource other
      (sourceText Mixed.text ((spot.map Mixed.sound).insert (.foreign text reason)))) :
    extract vendor other =
      ⟨vendor,
        (extract vendor source).entries.filter (fun entry => entry.line < spot.number) ++
          .unread spot.number (String.ofList (Text.trim text)) reason ::
            ((extract vendor source).entries.filter fun entry => spot.number ≤ entry.line).map
              (Entry.later 1),
        (extract vendor source).diagnostics ++
          [{ severity := .error, code := .partialDeclaration, line := some spot.number,
             message := "cannot read declaration '" ++ String.ofList (Text.trim text) ++ "': " ++
               reason.message }]⟩ := by
  have hmixed : ∀ part ∈ (spot.map Mixed.sound).insert (.foreign text reason),
      ∀ mixed ∈ part.lines, mixed.IsWellFormed vendor := by
    have hall := (@forall_numbered _ 1 _ (Clause.IsWellFormed vendor)).mpr h
    rw [spot.numbered_parts, List.forall_mem_append] at hall
    refine (@forall_numbered _ 1 _ (Mixed.IsWellFormed vendor)).mp ?_
    rw [spot.numbered_insert, List.forall_mem_append, List.forall_mem_cons, List.map_map,
      List.forall_mem_map, List.forall_mem_map]
    exact ⟨hall.1, ⟨hplain, hfilled, hreason⟩, hall.2⟩
  have hread := @extract_of_script _ _ Mixed.script _ _
    (fun part hpart => ⟨fun mixed hmem => Mixed.isRead (hmixed part hpart mixed hmem),
      fun _ => trivial⟩) hother
  -- What is declared in a canonical source is declared above the place, or below it.
  have hsource := extract_canonical h hsource
  rw [spot.numbered_parts, List.map_flatMap, List.flatMap_append] at hsource
  obtain ⟨habove, hbelow⟩ := spot.number_of_mem
  obtain ⟨hfront, hback⟩ := @filter_entries
    (spot.before.flatMap fun found => found.declared.map .declared)
    (spot.after.flatMap fun found => found.declared.map .declared) spot.number
    (fun entry hentry => by
      obtain ⟨found, hfound, hentry⟩ := List.mem_flatMap.mp hentry
      exact line_of_mem_declared entry hentry ▸ habove found hfound)
    (fun entry hentry => by
      obtain ⟨found, hfound, hentry⟩ := List.mem_flatMap.mp hentry
      exact line_of_mem_declared entry hentry ▸ hbelow found hfound)
  have hnumbered := spot.numbered_insert Mixed.sound (.foreign text reason)
  rw [numbered_eq_spread] at hnumbered
  dsimp only [Mixed.script] at hread
  rw [hread, hsource, hnumbered, hfront, hback, List.flatMap_append, List.flatMap_append,
    List.flatMap_cons, List.flatMap_cons, Mixed.flatMap_entries, Mixed.flatMap_entries,
    Mixed.flatMap_problems, Mixed.flatMap_problems, List.flatMap_map, List.map_flatMap,
    List.flatMap_congr fun found _ => declared_later 1 found]
  rfl

/-- A place between two declarations. -/
def levelSpot : Spot Clause :=
  ⟨[⟨⟨.input, false⟩, [⟨"Start", [], some "I:1/0", "BOOL", none, none⟩]⟩], ⟨.plain, false⟩,
    [⟨"Level", [], none, "INT", some (.token "5"), none⟩],
    [⟨"Count", [], none, "DINT", none, some "pulses"⟩], []⟩

def levelSource : String :=
  "VAR_INPUT\nStart AT I:1/0 : BOOL;\nEND_VAR\nVAR\nLevel : INT := 5;\n" ++
    "Count : DINT; // pulses\nEND_VAR"

/-- The same source with a line that has no colon. -/
def spoiltSource : String :=
  "VAR_INPUT\nStart AT I:1/0 : BOOL;\nEND_VAR\nVAR\nLevel : INT := 5;\n" ++
    " Limit INT 7 ;\nCount : DINT; // pulses\nEND_VAR"

theorem extract_spoiltSource :
    extract .rockwell spoiltSource =
      ⟨.rockwell,
        [.declared ⟨"Start", "BOOL", "I:1/0", "", "", ⟨.input, false⟩, 2⟩,
          .declared ⟨"Level", "INT", "", "5", "", ⟨.plain, false⟩, 5⟩,
          .unread 6 "Limit INT 7" .noDeclaration,
          .declared ⟨"Count", "DINT", "", "", "pulses", ⟨.plain, false⟩, 7⟩],
        [{ severity := .error, code := .partialDeclaration, line := some 6,
           message := "cannot read declaration 'Limit INT 7': expected 'name : TYPE'" }]⟩ := by
  have hparts : ∀ part ∈ levelSpot.parts, ∀ clause ∈ part.lines, clause.IsWellFormed .rockwell := by
    decide
  have hplain : IsPlain Vendor.rockwell.commentRules " Limit INT 7 ".toList := by
    decide
  have hreason : unreadable? Vendor.rockwell.commentRules (Text.trim " Limit INT 7 ".toList) =
      some .noDeclaration := by
    decide +kernel
  have hsource : IsSource levelSource (sourceText Clause.text levelSpot.parts) :=
    .inr (by decide +kernel)
  have hother : IsSource spoiltSource (sourceText Mixed.text
      ((levelSpot.map Mixed.sound).insert (.foreign " Limit INT 7 ".toList .noDeclaration))) :=
    .inr (by decide +kernel)
  have hinsert := extract_insert hparts hplain (by decide) hreason hsource hother
  rw [extract_canonical hparts hsource] at hinsert
  exact hinsert

end PlcTags.Source
