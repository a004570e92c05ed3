import Mathlib.Data.List.Basic
import PlcTags.Proofs.Source.Line
import PlcTags.Proofs.Source.Numbering
import PlcTags.Proofs.Source.Parts

/-!
# Sources with one declaration to a line

A source in which every block is opened, closed and filled line by line
(`sourceText`) is read line by line as well: whatever is found in it is found in one of its
lines (`extract_of_isSource`).  Between two such lines no statement is open
(`Reader.IsSettled`); a line that opens or closes a block changes the block and nothing else,
and the line of a declaration adds what its statement is read as.
-/

namespace PlcTags.Source

/-! ## Sources -/

/-- The line that opens a block. -/
def Block.header (block : Block) : List Char :=
  'V' :: 'A' :: 'R' :: (block.kind.ending ++ if block.constant then " CONSTANT".toList else [])

/-- A block with what stands in its lines. -/
structure Section (α : Type) where
  block : Block
  lines : List α
  deriving DecidableEq, Repr

/-- What stands in one line, and where. -/
structure Numbered (α : Type) where
  number : Nat
  block : Block
  line : α
  deriving DecidableEq, Repr

variable {α β : Type}

def Numbered.map (f : α → β) (found : Numbered α) : Numbered β :=
  ⟨found.number, found.block, f found.line⟩

namespace Section

def map (f : α → β) (part : Section α) : Section β :=
  ⟨part.block, part.lines.map f⟩

/-- The block with each of its lines ended by a line break. -/
def text (lineText : α → List Char) (part : Section α) : List Char :=
  part.block.header ++ '\n' ::
    (part.lines.flatMap (fun line => lineText line ++ ['\n']) ++ (endVar ++ ['\n']))

theorem text_append (lineText : α → List Char) (part : Section α) (rest : List Char) :
    part.text lineText ++ rest = part.block.header ++ '\n' ::
      (part.lines.flatMap (fun line => lineText line ++ ['\n']) ++ (endVar ++ '\n' :: rest)) := by
  simp [text]

end Section

/-- The lines of one block from a line number on. -/
def numberedLines (block : Block) (number : Nat) : List α → List (Numbered α)
  | [] => []
  | line :: rest => ⟨number, block, line⟩ :: numberedLines block (number + 1) rest

/-- The lines inside of blocks, the first block being opened in line `number`. -/
def numbered (number : Nat) : List (Section α) → List (Numbered α)
  | [] => []
  | part :: rest =>
    numberedLines part.block (number + 1) part.lines ++
      numbered (number + part.lines.length + 2) rest

def sourceText (lineText : α → List Char) (parts : List (Section α)) : List Char :=
  parts.flatMap (Section.text lineText)

/-! ### Lines of any height -/

/-- The number of the line behind some lines, each as high as it says. -/
def behind (height : α → Nat) (number : Nat) : List α → Nat
  | [] => number
  | line :: rest => behind height (number + height line) rest

/-- Like `numberedLines`, where a line may take several lines of the source. -/
def spreadLines (height : α → Nat) (block : Block) (number : Nat) : List α → List (Numbered α)
  | [] => []
  | line :: rest =>
    ⟨number, block, line⟩ :: spreadLines height block (number + height line) rest

/-- Like `numbered`, where a line may take several lines of the source. -/
def spread (height : α → Nat) (number : Nat) : List (Section α) → List (Numbered α)
  | [] => []
  | part :: rest =>
    spreadLines height part.block (number + 1) part.lines ++
      spread height (behind height (number + 1) part.lines + 1) rest

variable {height : α → Nat}

theorem behind_one (number : Nat) (lines : List α) :
    behind (fun _ => 1) number lines = number + lines.length := by
  induction lines generalizing number with
  | nil => rfl
  | cons line lines ih => rw [behind, ih, List.length_cons, Nat.add_right_comm, Nat.add_assoc]

theorem numberedLines_eq_spreadLines (block : Block) (number : Nat) (lines : List α) :
    numberedLines block number lines = spreadLines (fun _ => 1) block number lines := by
  induction lines generalizing number with
  | nil => rfl
  | cons line lines ih => rw [numberedLines, spreadLines, ih]

theorem numbered_eq_spread (number : Nat) (parts : List (Section α)) :
    numbered number parts = spread (fun _ => 1) number parts := by
  induction parts generalizing number with
  | nil => rfl
  | cons part parts ih =>
      have hbehind : number + part.lines.length + 2 = number + 1 + part.lines.length + 1 := by
        omega
      rw [numbered, spread, numberedLines_eq_spreadLines, ih, behind_one, hbehind]

theorem map_line_spreadLines (block : Block) (number : Nat) (lines : List α) :
    (spreadLines height block number lines).map Numbered.line = lines := by
  induction lines generalizing number with
  | nil => rfl
  | cons line lines ih => rw [spreadLines, List.map_cons, ih]

theorem map_line_spread (number : Nat) (parts : List (Section α)) :
    (spread height number parts).map Numbered.line = parts.flatMap Section.lines := by
  induction parts generalizing number with
  | nil => rfl
  | cons part parts ih =>
      rw [spread, List.map_append, map_line_spreadLines, ih, List.flatMap_cons]

/-- What holds of all lines holds wherever they stand. -/
theorem forall_spread {number : Nat} {parts : List (Section α)} {p : α → Prop} :
    (∀ found ∈ spread height number parts, p found.line) ↔
      ∀ part ∈ parts, ∀ line ∈ part.lines, p line := by
  have hmap : (∀ found ∈ spread height number parts, p found.line) ↔
      ∀ line ∈ (spread height number parts).map Numbered.line, p line := List.forall_mem_map.symm
  rw [hmap, map_line_spread]
  simp only [List.mem_flatMap, forall_exists_index, and_imp]
  exact forall_comm.trans (forall_congr' fun part => forall_comm)

theorem forall_numbered {number : Nat} {parts : List (Section α)} {p : α → Prop} :
    (∀ found ∈ numbered number parts, p found.line) ↔
      ∀ part ∈ parts, ∀ line ∈ part.lines, p line := by
  rw [numbered_eq_spread]
  exact forall_spread

theorem numberedLines_map (f : α → β) (block : Block) (number : Nat) (lines : List α) :
    numberedLines block number (lines.map f) =
      (numberedLines block number lines).map fun found =>
        ⟨found.number, found.block, f found.line⟩ := by
  induction lines generalizing number with
  | nil => rfl
  | cons line lines ih =>
      rw [List.map_cons, numberedLines, numberedLines, ih, List.map_cons]

theorem numbered_map (f : α → β) (number : Nat) (parts : List (Section α)) :
    numbered number (parts.map (Section.map f)) =
      (numbered number parts).map fun found => ⟨found.number, found.block, f found.line⟩ := by
  induction parts generalizing number with
  | nil => rfl
  | cons part parts ih =>
      rw [List.map_cons, numbered, numbered, ih, List.map_append]
      simp only [Section.map, numberedLines_map, List.length_map]

theorem sourceText_map (f : α → β) (lineText : β → List Char) (parts : List (Section α)) :
    sourceText lineText (parts.map (Section.map f)) =
      sourceText (fun line => lineText (f line)) parts := by
  rw [sourceText, sourceText, List.flatMap_map]
  refine List.flatMap_congr fun part _ => ?_
  simp only [Section.text, Section.map, List.flatMap_map]

/-! ## Lines -/

/-- A declaration in its line, perhaps with a comment behind it. -/
structure Noted where
  spelled : Spelled
  comment : Option (List Char)
  deriving DecidableEq, Repr

namespace Noted

def text (noted : Noted) : List Char :=
  noted.spelled.line ++ Spelled.commentText noted.comment

/-- The words of the comment. -/
def description (noted : Noted) : String :=
  String.ofList (Text.squeeze (noted.comment.getD []))

structure IsWellFormed (vendor : Vendor) (noted : Noted) : Prop where
  spelled : noted.spelled.IsWellFormed vendor
  comment : ∀ text ∈ noted.comment, '\n' ∉ text

instance (vendor : Vendor) (noted : Noted) : Decidable (noted.IsWellFormed vendor) :=
  decidable_of_iff
    (noted.spelled.IsWellFormed vendor ∧ ∀ text ∈ noted.comment, '\n' ∉ text)
    ⟨fun ⟨hspelled, hcomment⟩ => ⟨hspelled, hcomment⟩, fun h => ⟨h.spelled, h.comment⟩⟩

end Noted

namespace Numbered

/-- The declarations that are meant in a line. -/
def declarations (numbered : Numbered Noted) : List Declaration :=
  numbered.line.spelled.declarations numbered.block numbered.line.description numbered.number

/-- What the statement in a line is read as. -/
def outcome (vendor : Vendor) (numbered : Numbered Noted) :
    Except Unreadable (List Declaration) :=
  readDeclarations vendor.commentRules numbered.line.spelled.statement numbered.block
    numbered.line.description numbered.number

/-- What is found in a line. -/
def entries (vendor : Vendor) (numbered : Numbered Noted) : List Entry :=
  match numbered.outcome vendor with
  | .ok declarations => declarations.map .declared
  | .error reason =>
    [.unread numbered.number (String.ofList numbered.line.spelled.statement) reason]

/-- What is reported about a line. -/
def problems (vendor : Vendor) (numbered : Numbered Noted) : List Diagnostic :=
  match numbered.outcome vendor with
  | .ok _ => []
  | .error reason =>
    [{ severity := .error, code := .partialDeclaration, line := some numbered.number,
       message := "cannot read declaration '" ++
         String.ofList numbered.line.spelled.statement ++ "': " ++ reason.message }]

end Numbered

/-! ## The keywords of blocks -/

variable {vendor : Vendor}

theorem readAttributes_header (constant : Bool) :
    Block.readAttributes false (if constant then " CONSTANT".toList else []) = (constant, []) := by
  have hnil : Block.attribute? [] = none := rfl
  have hend : ∀ constant, Block.readAttributes constant [] = (constant, []) := by
    intro constant
    rw [Block.readAttributes]
    split
    · rfl
    · rename_i heq
      rw [hnil] at heq
      cases heq
  cases constant with
  | false => exact hend false
  | true =>
      have hone : Block.attribute? " CONSTANT".toList = some ("CONSTANT".toList, []) := by decide
      rw [if_pos rfl, Block.readAttributes]
      split
      · rename_i heq
        rw [hone] at heq
        cases heq
      · rename_i heq
        rw [hone] at heq
        obtain ⟨rfl, rfl⟩ := Prod.mk.inj (Option.some.inj heq)
        exact hend _

/-- **The block of a header is found**, and nothing follows it. -/
theorem find?_header (block : Block) : Block.find? none block.header = some (block, []) := by
  obtain ⟨kind, constant⟩ := block
  have hopen : Block.opening? (Block.header ⟨kind, constant⟩) =
      some (kind.ending, if constant then " CONSTANT".toList else []) := by
    cases kind <;> cases constant <;> decide
  have hkind : Block.kindOf kind.ending = kind := by
    cases kind <;> decide
  rw [Block.header] at hopen ⊢
  rw [Block.find?, hopen]
  simp only [Option.any_none, Bool.false_eq_true, if_false, readAttributes_header, hkind]

theorem cut_endVar (vendor : Vendor) : cut vendor.commentRules endVar = .endVar [] [] := by
  cases vendor <;> decide

/-- A line of words is code throughout. -/
theorem linesFrom_words {text : List Char} (h : text.all (fun c => isNameChar c || isGap c) = true)
    (number : Nat) (rest : List Char) :
    linesFrom vendor.commentRules .code (.start number) (text ++ '\n' :: rest) =
      ⟨number, String.ofList text, ""⟩ ::
        linesFrom vendor.commentRules .code (.start (number + 1)) rest :=
  linesFrom_plain (isCode_of_forall (by decide) (List.all_eq_true.mp h)) number rest

theorem words_header (block : Block) :
    block.header.all (fun c => isNameChar c || isGap c) = true := by
  obtain ⟨kind, constant⟩ := block
  cases kind <;> cases constant <;> decide

theorem words_endVar : endVar.all (fun c => isNameChar c || isGap c) = true := by
  decide

/-! ## Steps of the reader -/

namespace Reader

/-- No statement is open. -/
structure IsSettled (reader : Reader) : Prop where
  pending : reader.pending = []
  pendingComment : reader.pendingComment = ""
  deferred : reader.deferred = false

variable {reader : Reader} {rules : CommentRules} {block : Block}

/-- What is found in a line is added to what has been found before. -/
def add (reader : Reader) (vendor : Vendor) (found : Numbered Noted) : Reader :=
  { reader with
    pendingLine := found.number
    entries := reader.entries ++ found.entries vendor
    diagnostics := reader.diagnostics ++ found.problems vendor }

theorem IsSettled.add (h : reader.IsSettled) (vendor : Vendor) (found : Numbered Noted) :
    (reader.add vendor found).IsSettled :=
  ⟨h.pending, h.pendingComment, h.deferred⟩

theorem isSettled_start : ({} : Reader).IsSettled :=
  ⟨rfl, rfl, rfl⟩

/-- Nor is one open where a block has been opened. -/
theorem IsSettled.opened (h : reader.IsSettled) (block : Block) :
    ({ reader with block := some block, sawBlock := true } : Reader).IsSettled :=
  ⟨h.pending, h.pendingComment, h.deferred⟩

theorem IsSettled.resume (h : reader.IsSettled) (code : List Char) :
    reader.resume rules code = reader := by
  rw [Reader.resume, h.deferred]
  rfl

/-- Blanks at the end of a line are passed over. -/
theorem readRest_gap (hblock : reader.block = some block)
    (hdeferred : reader.deferred = (Statement.read? reader.pending).isSome) (line : Line)
    {gap : List Char} (hgap : IsGap gap) (hcut : cut rules gap = .lineEnd gap) :
    reader.readRest rules line gap = reader := by
  have hblank : Text.allBlank gap = true := List.all_eq_true.mpr hgap.isBlank
  have hnothing : reader.append line gap = reader := if_pos hblank
  rw [readRest_inside hblock, hcut]
  simp only [hnothing, ← hdeferred]

theorem IsSettled.deferred_eq (h : reader.IsSettled) :
    reader.deferred = (Statement.read? reader.pending).isSome := by
  rw [h.pending, h.deferred]
  rfl

theorem IsSettled.readLine_header (h : reader.IsSettled) (hblock : reader.block = none)
    (block : Block) (number : Nat) :
    reader.readLine vendor.commentRules ⟨number, String.ofList block.header, ""⟩ =
      { reader with block := some block, sawBlock := true } := by
  rw [Reader.readLine, h.resume, String.toList_ofList,
    readRest_opening hblock (find?_header block)]
  exact readRest_gap rfl (h.opened block).deferred_eq _ (List.forall_mem_nil _) rfl

theorem IsSettled.readLine_endVar (h : reader.IsSettled) (hblock : reader.block = some block)
    (number : Nat) :
    reader.readLine vendor.commentRules ⟨number, String.ofList endVar, ""⟩ =
      { reader with block := none } := by
  have hnothing : reader.append ⟨number, String.ofList endVar, ""⟩ [] = reader := rfl
  have hpending : Text.allBlank reader.pending = true := by
    rw [h.pending]
    rfl
  have hclose : reader.endBlock vendor.commentRules block = { reader with block := none } := by
    rw [Reader.endBlock, if_pos hpending]
  rw [Reader.readLine, h.resume, String.toList_ofList, readRest_inside hblock,
    cut_endVar]
  simp only [hnothing, hclose]
  exact readRest_outside rfl rfl _

/-- An empty line changes nothing outside of blocks; it opens or closes none, and nothing is
reported about it. -/
theorem readLine_empty (vendor : Vendor) (number : Nat) (reader : Reader) :
    (reader.readLine vendor.commentRules ⟨number, "", ""⟩).block = reader.block ∧
      (reader.readLine vendor.commentRules ⟨number, "", ""⟩).diagnostics = reader.diagnostics ∧
      (reader.block = none → reader.readLine vendor.commentRules ⟨number, "", ""⟩ = reader) := by
  have hresume : reader.resume vendor.commentRules [] = reader :=
    if_neg (by simp [Text.allBlank])
  have hread : reader.readLine vendor.commentRules ⟨number, "", ""⟩ =
      reader.readRest vendor.commentRules ⟨number, "", ""⟩ [] :=
    congrArg (fun next : Reader => next.readRest vendor.commentRules ⟨number, "", ""⟩ []) hresume
  rw [hread]
  cases hblock : reader.block with
  | none =>
      rw [readRest_outside hblock rfl]
      exact ⟨hblock, rfl, fun _ => rfl⟩
  | some block =>
      rw [readRest_inside hblock]
      exact ⟨hblock, rfl, fun hnone => absurd hnone (Option.some_ne_none block)⟩

/-- **A statement that has not ended** is reported when its block ends. -/
theorem readLine_endVar_of_pending (hblock : reader.block = some block)
    (hpending : Text.allBlank reader.pending = false) (number : Nat) :
    (reader.readLine vendor.commentRules ⟨number, String.ofList endVar, ""⟩).block = none ∧
      (reader.readLine vendor.commentRules
        ⟨number, String.ofList endVar, ""⟩).diagnostics ≠ [] := by
  have hclose : ∀ resumed : Reader, resumed.block = some block →
      resumed.readRest vendor.commentRules ⟨number, String.ofList endVar, ""⟩ endVar =
        resumed.endBlock vendor.commentRules block := by
    intro resumed hresumed
    rw [readRest_inside hresumed, cut_endVar]
    exact readRest_outside rfl rfl _
  rw [Reader.readLine, String.toList_ofList]
  -- The statement is reported where the block ends, or before the line is read at all.
  obtain ⟨deferred, heq⟩ | ⟨opened, -, heq⟩ := resume_cases reader vendor.commentRules endVar
  · have hread := hclose { reader with deferred } hblock
    rw [heq, hread, endBlock, if_neg (by simp [hpending])]
    exact ⟨rfl, diagnostics_endStatement_ne_nil { reader with deferred } _ hpending block⟩
  · have hread := hclose _ ((block_endStatement { reader with deferred := false }
      vendor.commentRules opened true).trans hblock)
    rw [heq, hread]
    exact ⟨rfl, (grows_endBlock _ _ block).diagnostics_ne_nil
      (diagnostics_endStatement_ne_nil { reader with deferred := false } _ hpending opened)⟩

/-! ### The line of a declaration -/

/-- Adds what the statement that began in a line is read as. -/
def addRead (reader : Reader) (number : Nat) (text : List Char) :
    Except Unreadable (List Declaration) → Reader
  | .ok declarations =>
    { reader with
      pendingLine := number
      entries := reader.entries ++ declarations.map .declared }
  | .error reason => ({ reader with pendingLine := number } : Reader).keepUnread text reason

theorem add_eq_addRead (reader : Reader) (vendor : Vendor) (found : Numbered Noted) :
    reader.add vendor found =
      reader.addRead found.number found.line.spelled.statement (found.outcome vendor) := by
  unfold add Numbered.entries Numbered.problems
  cases found.outcome vendor with
  | ok declarations => simp [addRead]
  | error reason => rfl

theorem IsSettled.addRead (h : reader.IsSettled) (number : Nat) (text : List Char)
    (outcome : Except Unreadable (List Declaration)) :
    (reader.addRead number text outcome).IsSettled := by
  cases outcome <;> exact ⟨h.pending, h.pendingComment, h.deferred⟩

theorem block_addRead (reader : Reader) (number : Nat) (text : List Char)
    (outcome : Except Unreadable (List Declaration)) :
    (reader.addRead number text outcome).block = reader.block := by
  cases outcome <;> rfl

/-- A statement and the next piece of it, as the reader puts them together. -/
def glue (pending piece : List Char) : List Char :=
  if Text.allBlank pending then piece else pending ++ ' ' :: piece

/-- The code of a line goes on with the statement, or begins it. -/
theorem IsSettled.append_glue {code text pending : List Char} (h : reader.IsSettled)
    (htrim : Text.trim code = text) (hfilled : Text.allBlank text = false) (line : Line)
    {began number : Nat}
    (hnumber : (if Text.allBlank pending then line.number else began) = number) :
    ({ reader with pending, pendingLine := began } : Reader).append line code =
      { reader with
        pending := glue pending text, pendingLine := number, pendingComment := line.comment } := by
  have hnotBlank : Text.allBlank code = false := by
    rw [← Text.allBlank_trim, htrim, hfilled]
  unfold Reader.append glue
  rw [hnotBlank, if_neg Bool.false_ne_true]
  dsimp only
  rw [htrim, ← hnumber]
  cases Text.allBlank pending <;> cases hcomment : line.comment.isEmpty <;>
    simp [h.pendingComment, String.isEmpty_iff.mp, hcomment]

/-- The code of a line becomes the statement. -/
theorem IsSettled.append_code {code text : List Char} (h : reader.IsSettled)
    (htrim : Text.trim code = text) (hfilled : Text.allBlank text = false) (line : Line) :
    reader.append line code =
      { reader with
        pending := text, pendingLine := line.number, pendingComment := line.comment } := by
  have hreader : reader = { reader with pending := [], pendingLine := reader.pendingLine } := by
    rw [← h.pending]
  rw [hreader]
  exact h.append_glue htrim hfilled line rfl

/-- A statement is read as a whole, and nothing of it is left. -/
theorem IsSettled.endStatement_text {text : List Char} (h : reader.IsSettled)
    (htrim : Text.trim text = text) (hfilled : Text.allBlank text = false) (block : Block)
    (number : Nat) (comment : String) :
    ({ reader with
        pending := text, pendingLine := number, pendingComment := comment } : Reader).endStatement
          rules block false =
      reader.addRead number text (readDeclarations rules text block comment number) := by
  have hne : text.isEmpty = false := by
    rw [← htrim, Text.isEmpty_trim, hfilled]
  unfold Reader.endStatement Reader.addRead
  cases hread : readDeclarations rules text block comment number with
  | ok declarations =>
      simp only [htrim, hne, h.pending, h.pendingComment, hread, Bool.false_eq_true, if_false]
  | error reason =>
      simp only [htrim, hne, h.pending, h.pendingComment, hread, Bool.false_eq_true, if_false]

/-- **A line with one statement** adds what this is read as. -/
theorem IsSettled.readLine_semicolon {code gap text : List Char} {line : Line}
    (h : reader.IsSettled) (hblock : reader.block = some block)
    (hcut : cut rules line.code.toList = .semicolon code gap) (hgap : IsGap gap)
    (hend : cut rules gap = .lineEnd gap) (htrim : Text.trim code = text)
    (hfilled : Text.allBlank text = false) :
    reader.readLine rules line =
      reader.addRead line.number text
        (readDeclarations rules text block line.comment line.number) := by
  have hread : Text.trim text = text := by rw [← htrim, Text.trim_trim]
  rw [Reader.readLine, h.resume, readRest_inside hblock, hcut]
  simp only [h.append_code htrim hfilled, h.endStatement_text hread hfilled]
  exact readRest_gap ((block_addRead ..).trans hblock) (h.addRead _ _ _).deferred_eq _ hgap hend

/-- **The line of a declaration** adds what its statement is read as. -/
theorem IsSettled.readLine_line (h : reader.IsSettled) (hblock : reader.block = some block)
    {noted : Noted} (hnoted : noted.IsWellFormed vendor) (number : Nat) :
    reader.readLine vendor.commentRules
        ⟨number, String.ofList noted.spelled.line, noted.description⟩ =
      reader.add vendor ⟨number, block, noted⟩ := by
  obtain ⟨hcut, hend⟩ := Spelled.cut_line hnoted.spelled
  rw [add_eq_addRead]
  exact h.readLine_semicolon hblock (by rw [String.toList_ofList, hcut])
    hnoted.spelled.afterSemicolon hend (Spelled.trim_code hnoted.spelled)
    (Spelled.allBlank_statement hnoted.spelled)

/-! ## Runs of the reader -/

/-- The reader has gone through some lines, from one line break to another, and has found this. -/
structure Reads (before : Reader) (entries : List Entry) (problems : List Diagnostic)
    (after : Reader) : Prop where
  settled : after.IsSettled
  block : after.block = before.block
  sawBlock : before.sawBlock = true → after.sawBlock = true
  entries : after.entries = before.entries ++ entries
  diagnostics : after.diagnostics = before.diagnostics ++ problems

variable {before middle after : Reader} {front back : List Entry} {first later : List Diagnostic}

theorem Reads.refl (h : reader.IsSettled) : Reads reader [] [] reader :=
  ⟨h, rfl, id, (List.append_nil _).symm, (List.append_nil _).symm⟩

theorem Reads.trans (hfront : Reads before front first middle)
    (hback : Reads middle back later after) :
    Reads before (front ++ back) (first ++ later) after where
  settled := hback.settled
  block := hback.block.trans hfront.block
  sawBlock hsaw := hback.sawBlock (hfront.sawBlock hsaw)
  entries := by rw [hback.entries, hfront.entries, List.append_assoc]
  diagnostics := by rw [hback.diagnostics, hfront.diagnostics, List.append_assoc]

/-- From one line break to the next, a text of this height is read as this line. -/
def ReadsAs (vendor : Vendor) (text : List Char) (height : Nat) (noted : Noted) : Prop :=
  ∀ {before : Reader} {block : Block}, before.IsSettled → before.block = some block →
    ∀ (number : Nat) (rest : List Char),
      (linesFrom vendor.commentRules .code (.start number) (text ++ '\n' :: rest)).foldl
          (readLine vendor.commentRules) before =
        (linesFrom vendor.commentRules .code (.start (number + height)) rest).foldl
          (readLine vendor.commentRules) (before.add vendor ⟨number, block, noted⟩)

theorem readsAs_line {noted : Noted} (hnoted : noted.IsWellFormed vendor) :
    ReadsAs vendor noted.text 1 noted := by
  intro before block h hblock number rest
  have hsplit : noted.text ++ '\n' :: rest =
      noted.spelled.line ++ (Spelled.commentText noted.comment ++ '\n' :: rest) := by
    simp [Noted.text]
  rw [hsplit, Spelled.linesFrom_line hnoted.spelled number hnoted.comment, List.foldl_cons,
    ← h.readLine_line hblock hnoted number]
  rfl

end Reader

/-- How the lines inside of blocks are written, and what is found in them. -/
structure Script (α : Type) where
  text : α → List Char
  /-- The number of lines of the source that a line takes. -/
  height : α → Nat
  entries : Numbered α → List Entry
  problems : Numbered α → List Diagnostic
  /-- What may stand behind a line. -/
  MayFollow : List Char → Prop

namespace Script

open Reader

/-- What the lines stand for is found in them. -/
def meaning (vendor : Vendor) (text : α → List Char) (height : α → Nat) (meant : α → Noted) :
    Script α where
  text
  height
  entries found := (found.map meant).entries vendor
  problems found := (found.map meant).problems vendor
  MayFollow _ := True

variable (script : Script α)

/-- What is found in a line is added to what has been found before. -/
def add (reader : Reader) (found : Numbered α) : Reader :=
  { reader with
    pendingLine := found.number
    entries := reader.entries ++ script.entries found
    diagnostics := reader.diagnostics ++ script.problems found }

/-- A line is read as the script says, in front of all that may follow it, and it may follow
another. -/
structure IsRead (vendor : Vendor) (line : α) : Prop where
  mayFollow : ∀ rest, script.MayFollow (script.text line ++ rest)
  reads : ∀ {before : Reader} {block : Block}, before.IsSettled → before.block = some block →
    ∀ (number : Nat) (rest : List Char), script.MayFollow rest →
      (linesFrom vendor.commentRules .code (.start number) (script.text line ++ '\n' :: rest)).foldl
          (readLine vendor.commentRules) before =
        (linesFrom vendor.commentRules .code (.start (number + script.height line)) rest).foldl
          (readLine vendor.commentRules) (script.add before ⟨number, block, line⟩)

/-- All lines of a block are read as the script says, and the block may end behind them. -/
structure ReadsAll (vendor : Vendor) (lines : List α) : Prop where
  lines : ∀ line ∈ lines, script.IsRead vendor line
  endVar : ∀ rest, script.MayFollow (endVar ++ rest)

variable {script}

theorem readsAll_meaning {text : α → List Char} {height : α → Nat} {meant : α → Noted}
    {lines : List α}
    (h : ∀ line ∈ lines, ReadsAs vendor (text line) (height line) (meant line)) :
    (meaning vendor text height meant).ReadsAll vendor lines :=
  ⟨fun line hline => ⟨fun _ => trivial, fun hsettled hblock number rest _ =>
    h line hline hsettled hblock number rest⟩, fun _ => trivial⟩

variable {before middle after : Reader} {block : Block}

theorem reads_add (h : before.IsSettled) (found : Numbered α) :
    Reads before (script.entries found) (script.problems found) (script.add before found) :=
  ⟨⟨h.pending, h.pendingComment, h.deferred⟩, rfl, id, rfl, rfl⟩

/-- **The lines of a block** are read one after the other. -/
theorem reads_lines {lines : List α} (h : before.IsSettled) (hblock : before.block = some block)
    (hlines : script.ReadsAll vendor lines) (number : Nat) {rest : List Char}
    (hrest : script.MayFollow rest) :
    ∃ after, Reads before ((spreadLines script.height block number lines).flatMap script.entries)
        ((spreadLines script.height block number lines).flatMap script.problems) after ∧
      (linesFrom vendor.commentRules .code (.start number)
          (lines.flatMap (fun line => script.text line ++ ['\n']) ++ rest)).foldl
          (readLine vendor.commentRules) before =
        (linesFrom vendor.commentRules .code
          (.start (behind script.height number lines)) rest).foldl
          (readLine vendor.commentRules) after := by
  induction lines generalizing before number with
  | nil => exact ⟨before, .refl h, rfl⟩
  | cons line lines ih =>
      obtain ⟨hline, hlater⟩ := List.forall_mem_cons.mp hlines.lines
      have hsplit : (line :: lines).flatMap (fun line => script.text line ++ ['\n']) ++ rest =
          script.text line ++ '\n' ::
            (lines.flatMap (fun line => script.text line ++ ['\n']) ++ rest) := by
        simp
      -- What stands behind the line is another one, or what stands behind them all.
      have hnext : script.MayFollow
          (lines.flatMap (fun line => script.text line ++ ['\n']) ++ rest) := by
        cases lines with
        | nil => exact hrest
        | cons next lines =>
            rw [List.flatMap_cons, List.append_assoc, List.append_assoc]
            exact (hlater next List.mem_cons_self).mayFollow _
      have hread := @reads_add _ script _ h ⟨number, block, line⟩
      obtain ⟨after, hreads, heq⟩ :=
        ih hread.settled hblock ⟨hlater, hlines.endVar⟩ (number + script.height line)
      refine ⟨after, hread.trans hreads, ?_⟩
      rw [hsplit, hline.reads h hblock number _ hnext, heq, behind]

/-- **A block is read** from its header to its end. -/
theorem reads_section {part : Section α} (h : before.IsSettled) (hblock : before.block = none)
    (hpart : script.ReadsAll vendor part.lines) (number : Nat) (rest : List Char) :
    ∃ after, Reads before
        ((spreadLines script.height part.block (number + 1) part.lines).flatMap script.entries)
        ((spreadLines script.height part.block (number + 1) part.lines).flatMap script.problems)
        after ∧
      after.sawBlock = true ∧
      (linesFrom vendor.commentRules .code (.start number) (part.text script.text ++ rest)).foldl
          (readLine vendor.commentRules) before =
        (linesFrom vendor.commentRules .code
          (.start (behind script.height (number + 1) part.lines + 1)) rest).foldl
          (readLine vendor.commentRules) after := by
  obtain ⟨inside, hreads, hlines⟩ :=
    reads_lines (h.opened part.block) rfl hpart (number + 1) (hpart.endVar ('\n' :: rest))
  refine ⟨{ inside with block := none }, ⟨?_, hblock.symm, fun _ => hreads.sawBlock rfl,
    hreads.entries, hreads.diagnostics⟩, hreads.sawBlock rfl, ?_⟩
  · exact ⟨hreads.settled.pending, hreads.settled.pendingComment, hreads.settled.deferred⟩
  · rw [part.text_append, linesFrom_words (words_header _), List.foldl_cons,
      h.readLine_header hblock, hlines, linesFrom_words words_endVar, List.foldl_cons,
      hreads.settled.readLine_endVar hreads.block]

/-- **A source is read** block by block. -/
theorem reads_sections {parts : List (Section α)} (h : before.IsSettled)
    (hblock : before.block = none)
    (hparts : ∀ part ∈ parts, script.ReadsAll vendor part.lines) (number : Nat) :
    ∃ after, Reads before ((spread script.height number parts).flatMap script.entries)
        ((spread script.height number parts).flatMap script.problems) after ∧
      (parts ≠ [] → after.sawBlock = true) ∧
      (linesFrom vendor.commentRules .code (.start number)
        (sourceText script.text parts)).foldl (readLine vendor.commentRules) before = after := by
  induction parts generalizing before number with
  | nil =>
      have hempty := (readLine_empty vendor number before).2.2 hblock
      exact ⟨before, .refl h, fun hne => absurd rfl hne, hempty⟩
  | cons part parts ih =>
      obtain ⟨hpart, hparts⟩ := List.forall_mem_cons.mp hparts
      obtain ⟨middle, hfirst, hsaw, hlines⟩ :=
        reads_section h hblock hpart number (sourceText script.text parts)
      obtain ⟨after, hrest, -, heq⟩ := ih hfirst.settled (hfirst.block.trans hblock) hparts
        (behind script.height (number + 1) part.lines + 1)
      have hsplit : sourceText script.text (part :: parts) =
          part.text script.text ++ sourceText script.text parts := List.flatMap_cons
      refine ⟨after, ?_, fun _ => hrest.sawBlock hsaw, by rw [hsplit, hlines, heq]⟩
      rw [spread, List.flatMap_append, List.flatMap_append]
      exact hfirst.trans hrest

end Script

/-! ## The end of the source -/

/-- Behind a line break at the end of a text there is an empty line. -/
theorem exists_linesFrom_append_newline (vendor : Vendor) (mode : Mode) (draft : Draft)
    (text : List Char) :
    ∃ number, linesFrom vendor.commentRules mode draft (text ++ ['\n']) =
      linesFrom vendor.commentRules mode draft text ++ [⟨number, "", ""⟩] :=
  ⟨_, linesFrom_append_newline vendor mode draft text []⟩

/-- A source that is this text, perhaps without the line break at its end. -/
def IsSource (source : String) (text : List Char) : Prop :=
  source.toList = text ∨ source.toList ++ ['\n'] = text

/-- Whether the last line ends with a line break makes no difference outside of blocks. -/
theorem foldl_lines_of_isSource {source : String} {text : List Char} {before after : Reader}
    (hsource : IsSource source text) (hblock : after.block = none)
    (hread : (linesFrom vendor.commentRules .code (.start 1) text).foldl
      (Reader.readLine vendor.commentRules) before = after) :
    (lines vendor.commentRules source).foldl (Reader.readLine vendor.commentRules) before =
      after := by
  rcases hsource with rfl | rfl
  · exact hread
  · obtain ⟨number, heq⟩ :=
      exists_linesFrom_append_newline vendor .code (.start 1) source.toList
    rw [heq, List.foldl_append] at hread
    -- The empty line leaves the block as it is, so there was none before it either.
    obtain ⟨hsame, -, hempty⟩ := Reader.readLine_empty vendor number
      ((lines vendor.commentRules source).foldl (Reader.readLine vendor.commentRules) before)
    have hread : Reader.readLine vendor.commentRules
        ((lines vendor.commentRules source).foldl (Reader.readLine vendor.commentRules) before)
          ⟨number, "", ""⟩ = after := hread
    rw [hread] at hsame hempty
    exact (hempty (hsame.symm.trans hblock)).symm

/-- **What is found in a source is found in its lines**, if they are read as the script says. -/
theorem extract_of_script {script : Script α} {parts : List (Section α)} {source : String}
    (h : ∀ part ∈ parts, script.ReadsAll vendor part.lines)
    (hsource : IsSource source (sourceText script.text parts)) :
    extract vendor source =
      ⟨vendor, (spread script.height 1 parts).flatMap script.entries,
        (spread script.height 1 parts).flatMap script.problems⟩ := by
  obtain ⟨after, hreads, hsaw, heq⟩ := Script.reads_sections Reader.isSettled_start rfl h 1
  have hread := foldl_lines_of_isSource hsource hreads.block heq
  have hfinish : ∀ lastLine,
      after.finish vendor.commentRules lastLine (Text.isAllBlank source) = after := by
    intro lastLine
    rw [Reader.finish, hreads.block]
    refine if_pos (Bool.or_eq_true_iff.mpr ?_)
    -- No block has been opened only if there is no text at all.
    cases parts with
    | nil =>
        have hempty : source.toList = [] := hsource.resolve_right (by simp [sourceText])
        exact .inr (by rw [Text.isAllBlank, hempty]; rfl)
    | cons part parts => exact .inl (hsaw (List.cons_ne_nil _ _))
  unfold extract
  simp only [hread, hfinish, hreads.entries, hreads.diagnostics]
  rfl

/-- What the lines stand for is found in them. -/
theorem extract_of_readsAs {lineText : α → List Char} {meant : α → Noted}
    {parts : List (Section α)} {source : String}
    (h : ∀ part ∈ parts, ∀ line ∈ part.lines,
      Reader.ReadsAs vendor (lineText line) (height line) (meant line))
    (hsource : IsSource source (sourceText lineText parts)) :
    extract vendor source =
      ⟨vendor,
        ((spread height 1 parts).map (Numbered.map meant)).flatMap (Numbered.entries vendor),
        ((spread height 1 parts).map (Numbered.map meant)).flatMap (Numbered.problems vendor)⟩ := by
  rw [List.flatMap_map, List.flatMap_map]
  exact @extract_of_script _ _ (.meaning vendor lineText height meant) _ _
    (fun part hpart => Script.readsAll_meaning (h part hpart)) hsource

theorem extract_of_isSource {parts : List (Section Noted)} {source : String}
    (h : ∀ part ∈ parts, ∀ noted ∈ part.lines, noted.IsWellFormed vendor)
    (hsource : IsSource source (sourceText Noted.text parts)) :
    extract vendor source =
      ⟨vendor, (numbered 1 parts).flatMap (Numbered.entries vendor),
        (numbered 1 parts).flatMap (Numbered.problems vendor)⟩ := by
  have hmap : (spread (fun _ => 1) 1 parts).map (Numbered.map id) = numbered 1 parts := by
    rw [numbered_eq_spread]
    exact List.map_id _
  rw [← hmap]
  exact extract_of_readsAs
    (fun part hpart noted hnoted => Reader.readsAs_line (h part hpart noted hnoted)) hsource

/-! ## Declarations that do not stray -/

/-- **What is meant is found** in a line that does not stray, and nothing is reported. -/
theorem Numbered.entries_of_not_strays {found : Numbered Noted}
    (h : found.line.IsWellFormed vendor) (hnot : ¬ found.line.spelled.Strays) :
    found.entries vendor = found.declarations.map .declared ∧ found.problems vendor = [] := by
  have houtcome : found.outcome vendor = .ok found.declarations :=
    Spelled.readDeclarations_statement h.spelled hnot _ _ _
  rw [Numbered.entries, Numbered.problems, houtcome]
  exact ⟨rfl, rfl⟩

/-- **What is meant is found** in a source no declaration of which strays. -/
theorem extract_of_not_strays {parts : List (Section Noted)} {source : String}
    (h : ∀ part ∈ parts, ∀ noted ∈ part.lines, noted.IsWellFormed vendor)
    (hnot : ∀ part ∈ parts, ∀ noted ∈ part.lines, ¬ noted.spelled.Strays)
    (hsource : IsSource source (sourceText Noted.text parts)) :
    extract vendor source =
      ⟨vendor, ((numbered 1 parts).flatMap Numbered.declarations).map .declared, []⟩ := by
  have hfound : ∀ found ∈ numbered 1 parts,
      found.entries vendor = found.declarations.map .declared ∧ found.problems vendor = [] := by
    exact fun found hfound => found.entries_of_not_strays
      (forall_numbered.mpr h found hfound) (forall_numbered.mpr hnot found hfound)
  rw [extract_of_isSource h hsource, List.map_flatMap,
    List.flatMap_congr fun found hmem => (hfound found hmem).1,
    List.flatMap_eq_nil_iff.mpr fun found hmem => (hfound found hmem).2]

end PlcTags.Source
