import PlcTags.Dialect
import PlcTags.Text.Trim

/-!
# Lines of code

A source text is cut into its lines, each with its code and the comment that belongs
to it.  A comment belongs to the code before it on the same line; a comment that opens
before any code, and the part of a comment that runs on to later lines, belongs to
nothing.  String literals and quoted names are code, whatever they hold.
-/

namespace PlcTags.Source

/-- One line of a source text without its comments. -/
structure Line where
  /-- The number of the line, from 1. -/
  number : Nat
  code : String
  /-- The words of the comments that belong to the code, one space apart. -/
  comment : String
  deriving DecidableEq, Repr

/-- What the next character belongs to. -/
inductive Mode where
  | code
  | lineComment
  | blockComment
  | braces
  | quoted (quote : Char) (escaped : Bool)
  /-- The second character of a mark, after which `next` applies. -/
  | mark (next : Mode)
  deriving DecidableEq, Repr

/-- Comments to the end of the line and literals end with the line; block comments and
braces go on. -/
def Mode.atLineBreak : Mode → Mode
  | lineComment => code
  | quoted .. => code
  | mode => mode

/-- A line that is being read, its texts backwards. -/
structure Draft where
  number : Nat
  code : List Char
  comment : List Char
  /-- The comment that is being read belongs to the line's code. -/
  belongs : Bool

namespace Draft

def start (number : Nat) : Draft :=
  ⟨number, [], [], false⟩

def finish (draft : Draft) : Line :=
  ⟨draft.number, String.ofList draft.code.reverse,
    String.ofList (Text.squeeze draft.comment.reverse)⟩

def hasCode (draft : Draft) : Bool :=
  !Text.allBlank draft.code

def addCode (draft : Draft) (c : Char) : Draft :=
  { draft with code := c :: draft.code }

/-- Adds a character of a comment, if the comment belongs to the line's code. -/
def addComment (draft : Draft) (c : Char) : Draft :=
  if draft.belongs then { draft with comment := c :: draft.comment } else draft

/-- Opens a comment. -/
def openComment (draft : Draft) : Draft :=
  { draft with belongs := draft.hasCode }

end Draft

/-- Whether `c` and the character after it make up a mark. -/
def isMark (mark : Char × Char) (c : Char) (next : Option Char) : Bool :=
  c == mark.1 && next == some mark.2

/-- Reads a character of code.  A block comment and braces leave a blank in their
place. -/
def readCode (rules : CommentRules) (draft : Draft) (c : Char) (next : Option Char) :
    Mode × Draft :=
  if isMark ('/', '/') c next then (.mark .lineComment, draft.openComment)
  else if isMark rules.blockOpen c next then
    (.mark .blockComment, (draft.openComment.addComment ' ').addCode ' ')
  else if rules.braces && c == '\x7b' then (.braces, draft.addCode ' ')
  else if c == '\'' || (rules.quotedNames && c == '"') then (.quoted c false, draft.addCode c)
  else (.code, draft.addCode c)

/-- What follows a character between quotes.  A dollar sign takes the character after it
out of its role. -/
def afterQuoted (quote : Char) (escaped : Bool) (c : Char) : Mode :=
  if escaped then .quoted quote false
  else if c == '$' then .quoted quote true
  else if c == quote then .code
  else .quoted quote false

/-- Reads one character that is no line break. -/
def readChar (rules : CommentRules) (mode : Mode) (draft : Draft) (c : Char)
    (next : Option Char) : Mode × Draft :=
  match mode with
  | .code => readCode rules draft c next
  | .lineComment => (.lineComment, draft.addComment c)
  | .blockComment =>
    if isMark rules.blockClose c next then (.mark .code, draft.addComment ' ')
    else (.blockComment, draft.addComment c)
  | .braces => (if c == '\x7d' then .code else .braces, draft)
  | .quoted quote escaped => (afterQuoted quote escaped c, draft.addCode c)
  | .mark next => (next, draft)

/-- The lines from `draft` on. -/
def linesFrom (rules : CommentRules) (mode : Mode) (draft : Draft) : List Char → List Line
  | [] => [draft.finish]
  | c :: rest =>
    if c = '\n' then
      draft.finish :: linesFrom rules mode.atLineBreak (.start (draft.number + 1)) rest
    else
      let (mode, draft) := readChar rules mode draft c rest.head?
      linesFrom rules mode draft rest

/-- The lines of a source text; there is at least one. -/
def lines (rules : CommentRules) (source : String) : List Line :=
  linesFrom rules .code (.start 1) source.toList

theorem linesFrom_ne_nil (rules : CommentRules) (mode : Mode) (draft : Draft)
    (text : List Char) : linesFrom rules mode draft text ≠ [] := by
  induction text generalizing mode draft with
  | nil => simp [linesFrom]
  | cons c rest ih =>
    rw [linesFrom]
    split
    · simp
    · exact ih _ _

end PlcTags.Source
