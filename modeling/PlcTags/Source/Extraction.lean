import PlcTags.Diagnostic
import PlcTags.Source.Declaration
import PlcTags.Source.Line

/-!
# Extraction

The declarations of a source text, in order.  Extraction never fails: a statement that
cannot be read is kept with the reason, and reported.

The lines are read one after the other.  Outside of blocks, a line is searched for the
keyword of a block.  Inside, statements end at a semicolon or with the block; a
statement that could be complete at the end of a line is taken to lack its semicolon
unless the next line with code goes on with its default.
-/

namespace PlcTags.Source

/-- What was found at one place of a source text. -/
inductive Entry where
  | declared (declaration : Declaration)
  | unread (line : Nat) (text : String) (reason : Unreadable)
  deriving DecidableEq, Repr

namespace Entry

def declaration? : Entry → Option Declaration
  | declared declaration => some declaration
  | unread .. => none

end Entry

structure Extraction where
  vendor : Vendor
  entries : List Entry
  diagnostics : List Diagnostic
  deriving Repr

/-- The declarations that were read. -/
def Extraction.declarations (extraction : Extraction) : List Declaration :=
  extraction.entries.filterMap Entry.declaration?

/-! ## Pieces of a line -/

def endVar : List Char := "END_VAR".toList

/-- Whether a character continues a name. -/
def continuesName (c : Char) : Bool :=
  Text.isLetterOrNumeral c || c == '_'

/-- What follows `END_VAR`, if that stands here as a whole word; `before` is the
character in front of it. -/
def afterEndVar? (before : Option Char) (text : List Char) : Option (List Char) :=
  if (text.take endVar.length).map Char.toUpper == endVar then
    let rest := text.drop endVar.length
    if before.any continuesName || rest.head?.any continuesName then none else some rest
  else none

/-- How a piece of a line inside a block ends. -/
inductive Cut where
  | semicolon (piece rest : List Char)
  | endVar (piece rest : List Char)
  | lineEnd (piece : List Char)
  deriving DecidableEq, Repr

/-- The piece up to the first semicolon or `END_VAR` outside quotes.  What has been
passed stands in `before`, backwards. -/
def cutFrom (rules : CommentRules) (mode : Mode) (before : List Char) : List Char → Cut
  | [] => .lineEnd before.reverse
  | c :: rest =>
    match mode with
    | .quoted quote escaped => cutFrom rules (afterQuoted quote escaped c) (c :: before) rest
    | _ =>
      if c == '\'' || (rules.quotedNames && c == '"') then
        cutFrom rules (.quoted c false) (c :: before) rest
      else if c == ';' then .semicolon before.reverse rest
      else match afterEndVar? before.head? (c :: rest) with
        | some rest => .endVar before.reverse rest
        | none => cutFrom rules .code (c :: before) rest

def cut (rules : CommentRules) (text : List Char) : Cut :=
  cutFrom rules .code [] text

theorem length_of_afterEndVar? {before : Option Char} {text rest : List Char}
    (h : afterEndVar? before text = some rest) : rest.length < text.length := by
  unfold afterEndVar? at h
  split at h
  · rename_i hword
    have hlength : ((text.take endVar.length).map Char.toUpper).length = endVar.length := by
      rw [beq_iff_eq.1 hword]
    have hseven : endVar.length = 7 := by decide
    simp only [List.length_map, List.length_take] at hlength
    dsimp only at h
    split at h
    · simp at h
    · simp only [Option.some.injEq] at h
      rw [← h, List.length_drop]
      omega
  · simp at h

/-- What follows a piece that does not reach to the end of the line. -/
def Cut.rest? : Cut → Option (List Char)
  | semicolon _ rest => some rest
  | endVar _ rest => some rest
  | lineEnd _ => none

theorem length_of_cutFrom {rules : CommentRules} {mode : Mode} {before text rest : List Char}
    (h : (cutFrom rules mode before text).rest? = some rest) : rest.length < text.length := by
  fun_induction cutFrom rules mode before text with
  | case1 => simp [Cut.rest?] at h
  | case2 before c tail quote escaped ih =>
    have := ih h
    simp only [List.length_cons]; omega
  | case3 mode before c tail _ _ ih =>
    have := ih h
    simp only [List.length_cons]; omega
  | case4 =>
    simp only [Cut.rest?, Option.some.injEq] at h
    simp [h]
  | case5 mode before c tail _ _ after hend _ =>
    simp only [Cut.rest?, Option.some.injEq] at h
    rw [← h]
    exact length_of_afterEndVar? hend
  | case6 mode before c tail _ _ _ _ ih =>
    have := ih h
    simp only [List.length_cons]; omega

/-- The rest of a line after the end of a block: blanks and one semicolon are passed
over. -/
def afterBlock (text : List Char) : List Char :=
  match Text.trimStart text with
  | ';' :: rest => rest
  | rest => rest

theorem length_afterBlock_le (text : List Char) : (afterBlock text).length ≤ text.length := by
  have htrim : (Text.trimStart text).length ≤ text.length := (List.dropWhile_suffix _).length_le
  unfold afterBlock
  split
  · rename_i rest h
    rw [h] at htrim
    simp only [List.length_cons] at htrim
    omega
  · exact htrim

/-! ## Reading -/

/-- How far a source text has been read. -/
structure Reader where
  /-- The open block. -/
  block : Option Block := none
  /-- The statement that has not ended, its pieces one space apart. -/
  pending : List Char := []
  /-- The line on which it began. -/
  pendingLine : Nat := 0
  /-- The last comment that belongs to one of its pieces. -/
  pendingComment : String := ""
  /-- The statement could be complete, and lacks its semicolon. -/
  deferred : Bool := false
  /-- A block has been opened before. -/
  sawBlock : Bool := false
  entries : List Entry := []
  diagnostics : List Diagnostic := []

namespace Reader

def report (reader : Reader) (diagnostic : Diagnostic) : Reader :=
  { reader with diagnostics := reader.diagnostics ++ [diagnostic] }

/-- Adds a piece of a line to the statement. -/
def append (reader : Reader) (line : Line) (piece : List Char) : Reader :=
  if Text.allBlank piece then reader
  else
    let reader :=
      if Text.allBlank reader.pending then
        { reader with
          pending := Text.trim piece, pendingLine := line.number, pendingComment := "" }
      else { reader with pending := reader.pending ++ ' ' :: Text.trim piece }
    if line.comment.isEmpty then reader else { reader with pendingComment := line.comment }

/-- Keeps a statement that cannot be read. -/
def keepUnread (reader : Reader) (text : List Char) (reason : Unreadable) : Reader :=
  let shown := String.ofList text
  { reader with
    entries := reader.entries ++ [.unread reader.pendingLine shown reason]
    diagnostics := reader.diagnostics ++
      [{ severity := .error, code := .partialDeclaration, line := some reader.pendingLine,
         message := "cannot read declaration '" ++ shown ++ "': " ++ reason.message }] }

/-- Warns of a statement without its semicolon. -/
def reportUnterminated (reader : Reader) (text : List Char) : Reader :=
  reader.report
    { severity := .warning, code := .partialDeclaration, line := some reader.pendingLine,
      message := "declaration '" ++ String.ofList text ++ "' is missing its ';'" }

/-- Ends the statement. -/
def endStatement (rules : CommentRules) (block : Block) (unterminated : Bool)
    (reader : Reader) : Reader :=
  let text := Text.trim reader.pending
  let comment := reader.pendingComment
  let reader := { reader with pending := [], pendingComment := "" }
  if text.isEmpty then reader
  else
    let reader := if unterminated then reader.reportUnterminated text else reader
    match readDeclarations rules text block comment reader.pendingLine with
    | .ok declarations =>
      { reader with entries := reader.entries ++ declarations.map Entry.declared }
    | .error reason => reader.keepUnread text reason

/-- Whether a text goes on with the default of the statement. -/
def continues (reader : Reader) (code : List Char) : Bool :=
  [':', '='].isPrefixOf (Text.trimStart code) ||
    ['=', ':'].isPrefixOf (Text.trimEnd reader.pending).reverse

/-- Decides, at a line with code, about a statement that could have been complete. -/
def resume (rules : CommentRules) (reader : Reader) (code : List Char) : Reader :=
  if reader.deferred && !Text.allBlank code then
    let settled := { reader with deferred := false }
    match reader.block with
    | some block =>
      if reader.continues code then settled else settled.endStatement rules block true
    | none => settled
  else reader

/-- Ends the block, and with it a statement that lacks its semicolon. -/
def endBlock (rules : CommentRules) (block : Block) (reader : Reader) : Reader :=
  let reader :=
    if Text.allBlank reader.pending then reader else reader.endStatement rules block true
  { reader with block := none }

/-- Reads the rest of a line. -/
def readRest (rules : CommentRules) (line : Line) (reader : Reader) (text : List Char) :
    Reader :=
  match reader.block with
  | none =>
    match h : Block.find? none text with
    | none => reader
    | some (block, rest) =>
      have := Block.length_of_find? h
      readRest rules line { reader with block := some block, sawBlock := true } rest
  | some block =>
    match h : cut rules text with
    | .semicolon piece rest =>
      have := length_of_cutFrom (congrArg Cut.rest? h)
      readRest rules line ((reader.append line piece).endStatement rules block false) rest
    | .endVar piece rest =>
      have := length_of_cutFrom (congrArg Cut.rest? h)
      have := length_afterBlock_le rest
      readRest rules line ((reader.append line piece).endBlock rules block) (afterBlock rest)
    | .lineEnd piece =>
      let reader := reader.append line piece
      { reader with deferred := (Statement.read? reader.pending).isSome }
  termination_by text.length

/-- Reads a line. -/
def readLine (rules : CommentRules) (reader : Reader) (line : Line) : Reader :=
  (reader.resume rules line.code.toList).readRest rules line line.code.toList

/-- What is left to say at the end of the text. -/
def finish (rules : CommentRules) (lastLine : Nat) (isBlank : Bool) (reader : Reader) : Reader :=
  match reader.block with
  | some block =>
    let reader :=
      if reader.deferred then reader.endStatement rules block true
      else if Text.allBlank reader.pending then reader
      else reader.keepUnread (Text.trim reader.pending) .blockEnded
    reader.report
      { severity := .error, code := .unparseable, line := some lastLine,
        message := "declaration block is not closed by END_VAR" }
  | none =>
    if reader.sawBlock || isBlank then reader
    else reader.report
      { severity := .error, code := .unparseable,
        message := "no VAR ... END_VAR declaration block found" }

end Reader

/-- The number of the last of some lines. -/
def lastLine (lines : List Line) : Nat :=
  match lines.getLast? with
  | some line => line.number
  | none => 1

/-- The declarations of a source text in a vendor's dialect. -/
def extract (vendor : Vendor) (source : String) : Extraction :=
  let rules := vendor.commentRules
  let lines := lines rules source
  let reader := (lines.foldl (Reader.readLine rules) {}).finish rules (lastLine lines)
    (Text.isAllBlank source)
  ⟨vendor, reader.entries, reader.diagnostics⟩

/-! ## Tags -/

namespace Declaration

/-- The tag of a declaration; only the type is checked here, the address is left to the
validation of tags. -/
def toTag (declaration : Declaration) (vendor : Vendor) : Except Diagnostic Tag :=
  match vendor.readType? declaration.typeName with
  | none =>
    .error
      { severity := .error, code := .untranslatableType, line := some declaration.line,
        tag := some declaration.name,
        message := vendor.word ++ " has no data type '" ++ declaration.typeName ++ "'" }
  | some dataType =>
    .ok
      { name := declaration.name
        dataType := dataType
        address := Text.trimmed declaration.address
        scope := declaration.block.scope
        category :=
          declaration.block.category?.getD (Category.infer declaration.block.scope none)
        defaultValue := declaration.defaultValue
        description := declaration.description
        vendor := vendor }

end Declaration

namespace Extraction

/-- The tags of the declarations whose type the vendor knows. -/
def tags (extraction : Extraction) : List Tag :=
  extraction.declarations.filterMap fun declaration =>
    (declaration.toTag extraction.vendor).toOption

/-- The problems of the extraction, and then those of the types. -/
def tagDiagnostics (extraction : Extraction) : List Diagnostic :=
  extraction.diagnostics ++ extraction.declarations.filterMap fun declaration =>
    match declaration.toTag extraction.vendor with
    | .ok _ => none
    | .error diagnostic => some diagnostic

end Extraction

end PlcTags.Source
