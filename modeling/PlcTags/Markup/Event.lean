import PlcTags.Markup.Attribute

/-!
# Events

A text is cut into tags, runs of text, CDATA sections and what is passed over:
comments, instructions and document types.  Each event has the position at which it
begins.  A text that cannot be cut further ends in a fault.
-/

namespace PlcTags.Markup

inductive Event where
  /-- A start tag, between its angle brackets. -/
  | start (tag : List Char)
  /-- The tag of an empty element, without its slash. -/
  | empty (tag : List Char)
  /-- An end tag, from its slash on. -/
  | close (name : List Char)
  | text (run : List Char)
  | cdata (text : List Char)
  | skipped
  | fault (fault : Fault)
  deriving DecidableEq, Repr

/-! ## Cutting at an angle bracket -/

/-- The text up to the first closing angle bracket at which `isEnd` holds of what has
been passed, backwards, and the rest. -/
def cutWhere (isEnd : List Char → Bool) (passed : List Char) :
    List Char → Option (List Char × List Char)
  | [] => none
  | c :: rest =>
    if c == '>' && isEnd passed then some (passed.reverse, rest)
    else cutWhere isEnd (c :: passed) rest

theorem length_of_cutWhere {isEnd : List Char → Bool} {passed text body rest : List Char}
    (h : cutWhere isEnd passed text = some (body, rest)) : rest.length < text.length := by
  induction text generalizing passed with
  | nil => simp [cutWhere] at h
  | cons c text ih =>
    simp only [cutWhere] at h
    split at h
    · simp only [Option.some.injEq, Prod.mk.injEq] at h
      simp [h.2]
    · have := ih h
      simp only [List.length_cons]; omega

/-- A comment ends with two hyphens after those that open it. -/
def endsComment (passed : List Char) : Bool :=
  ['-', '-'].isPrefixOf passed && passed.length ≥ 5

def endsCdata (passed : List Char) : Bool :=
  [']', ']'].isPrefixOf passed

/-- In a document type the angle brackets inside pair up. -/
def endsDoctype (passed : List Char) : Bool :=
  passed.count '<' == passed.count '>'

/-- The quote that is open after a character. -/
def quoteAfter (quote : Option Char) (c : Char) : Option Char :=
  match quote with
  | none => if c == '"' || c == '\'' then some c else none
  | some quote => if c == quote then none else some quote

/-- A tag ends outside of quotes. -/
def endsTag (passed : List Char) : Bool :=
  (passed.reverse.foldl quoteAfter none).isNone

/-! ## Reading one event -/

/-- What follows a word in any ASCII case at the front of a text. -/
def afterWord? (word text : List Char) : Option (List Char) :=
  if (text.take word.length).map Char.toUpper == word then some (text.drop word.length) else none

def commentEvent (body : List Char) : Event :=
  if ['!', '-', '-'].isPrefixOf body then .skipped else .fault (.unexpectedEnd .comment)

def cdataEvent (body : List Char) : Event :=
  match afterWord? "![CDATA[".toList body with
  | some text => .cdata (text.take (text.length - 2))
  | none => .fault (.unexpectedEnd .cdata)

def doctypeEvent (body : List Char) : Event :=
  match afterWord? "!DOCTYPE".toList body with
  | some text => if text.all isSpace then .fault .emptyDoctype else .skipped
  | none => .fault (.unexpectedEnd .doctype)

/-- An instruction stands between question marks. -/
def instructionEvent (body : List Char) : Event :=
  if body.length > 2 && body.getLast? == some '?' then .skipped
  else .fault (.unexpectedEnd .instruction)

def tagEvent (body : List Char) : Event :=
  if body.getLast? == some '/' then .empty body.dropLast else .start body

/-- The event that a text up to a closing angle bracket makes, or the fault that there
is no such text. -/
def closed (reading : Section) (make : List Char → Event) (isEnd : List Char → Bool)
    (passed text : List Char) : Event × List Char :=
  match cutWhere isEnd passed text with
  | some (body, rest) => (make body, rest)
  | none => (.fault (.unexpectedEnd reading), [])

/-- What follows an opening angle bracket and an exclamation mark. -/
def readBang : List Char → Event × List Char
  | [] => (.fault (.unexpectedEnd .bang), [])
  | '-' :: rest => closed .comment commentEvent endsComment ['-', '!'] rest
  | '[' :: rest => closed .cdata cdataEvent endsCdata ['[', '!'] rest
  | c :: rest =>
    if c.toUpper == 'D' then closed .doctype doctypeEvent endsDoctype [c, '!'] rest
    else (.fault (.unknownBang ((Text.byteChars [c]).headD c)), [])

/-- A text up to the next closing angle bracket or the end, and the rest. -/
def upToBracket (text : List Char) : List Char × List Char :=
  (text.takeWhile (· != '>'), (text.dropWhile (· != '>')).drop 1)

/-- What follows an opening angle bracket. -/
def readMarkup : List Char → Event × List Char
  | [] => (.skipped, [])
  | '!' :: rest => readBang rest
  | '/' :: rest => let (name, rest) := upToBracket rest; (.close name, rest)
  | '?' :: rest =>
    let (body, rest) := upToBracket ('?' :: rest)
    (instructionEvent body, rest)
  | text => closed .element tagEvent endsTag [] text

/-- The first event of a text that begins with `c`, and the rest. -/
def readEvent (c : Char) (text : List Char) : Event × List Char :=
  if c = '<' then readMarkup text
  else (.text (c :: text.takeWhile (· != '<')), text.dropWhile (· != '<'))

theorem length_closed_le (reading : Section) (make : List Char → Event)
    (isEnd : List Char → Bool) (passed text : List Char) :
    (closed reading make isEnd passed text).2.length ≤ text.length := by
  unfold closed
  split
  · rename_i h
    exact Nat.le_of_lt (length_of_cutWhere h)
  · simp

theorem length_upToBracket_le (text : List Char) :
    (upToBracket text).2.length ≤ text.length := by
  have := (List.dropWhile_suffix (l := text) (· != '>')).length_le
  simp only [upToBracket, List.length_drop]; omega

theorem length_readBang_le (text : List Char) : (readBang text).2.length ≤ text.length := by
  unfold readBang
  split
  · simp
  · exact Nat.le_succ_of_le (length_closed_le ..)
  · exact Nat.le_succ_of_le (length_closed_le ..)
  · split
    · exact Nat.le_succ_of_le (length_closed_le ..)
    · simp

theorem length_readMarkup_le (text : List Char) : (readMarkup text).2.length ≤ text.length := by
  unfold readMarkup
  split
  · simp
  · exact Nat.le_succ_of_le (length_readBang_le _)
  · exact Nat.le_succ_of_le (length_upToBracket_le _)
  · exact length_upToBracket_le _
  · exact length_closed_le ..

theorem length_readEvent_le (c : Char) (text : List Char) :
    (readEvent c text).2.length ≤ text.length := by
  unfold readEvent
  split
  · exact length_readMarkup_le text
  · exact (List.dropWhile_suffix _).length_le

/-! ## All events -/

/-- An event with the byte at which it begins. -/
structure Placed where
  offset : Nat
  event : Event
  deriving DecidableEq, Repr

/-- The events of a text that begins at byte `offset`. -/
def eventsFrom (offset : Nat) : List Char → List Placed
  | [] => []
  | c :: text =>
    let read := readEvent c text
    have := length_readEvent_le c text
    let length := Text.byteLength (c :: text) - Text.byteLength read.2
    ⟨offset, read.1⟩ :: eventsFrom (offset + length) read.2
  termination_by text => text.length
  decreasing_by simp only [List.length_cons]; omega

def events (text : List Char) : List Placed :=
  eventsFrom 0 text

end PlcTags.Markup
