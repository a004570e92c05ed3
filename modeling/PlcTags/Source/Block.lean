import PlcTags.Tag.Vocabulary
import PlcTags.Text.Classes
import PlcTags.Text.Trim

/-!
# Declaration blocks

Variables are declared in blocks that a keyword such as `VAR_INPUT` opens, perhaps
with attributes such as `CONSTANT`, and `END_VAR` closes.  The kind of block gives the
scope of what is declared in it and sometimes the category.
-/

namespace PlcTags.Source

namespace Block

inductive Kind where
  | plain
  | input
  | output
  | inOut
  | global
  | temp
  | static
  | external
  deriving DecidableEq, Repr

namespace Kind

def all : List Kind := [plain, input, output, inOut, global, temp, static, external]

def word : Kind → String
  | plain => "var"
  | input => "input"
  | output => "output"
  | inOut => "in_out"
  | global => "global"
  | temp => "temp"
  | static => "static"
  | external => "external"

/-- What follows `VAR` in the keyword of the block. -/
def ending : Kind → List Char
  | plain => []
  | input => "_INPUT".toList
  | output => "_OUTPUT".toList
  | inOut => "_IN_OUT".toList
  | global => "_GLOBAL".toList
  | temp => "_TEMP".toList
  | static => "_STAT".toList
  | external => "_EXTERNAL".toList

def scope : Kind → Scope
  | input => .input
  | output => .output
  | global | external => .global
  | plain | inOut | temp | static => .local

end Kind

end Block

/-- The kind of a block and whether it holds constants. -/
structure Block where
  kind : Block.Kind
  constant : Bool
  deriving DecidableEq, Repr

namespace Block

def scope (block : Block) : Scope :=
  block.kind.scope

/-- The category of everything in the block, if the block decides it. -/
def category? (block : Block) : Option Category :=
  if block.constant then some .constant
  else if block.kind = .temp then some .temp
  else none

/-! ## Keywords -/

/-- Whether a character is an upper-case letter of a keyword in any case; the long s
counts as an s, and the Kelvin sign as a k. -/
def isCaseOf (letter c : Char) : Bool :=
  c.toUpper == letter || (letter == 'S' && c.toNat == 0x17F) || (letter == 'K' && c.toNat == 0x212A)

/-- The keyword at the front of a text, as it is written, and the rest. -/
def keyword? : List Char → List Char → Option (List Char × List Char)
  | [], text => some ([], text)
  | letter :: letters, c :: text =>
    if isCaseOf letter c then
      (keyword? letters text).map fun (written, rest) => (c :: written, rest)
    else none
  | _ :: _, [] => none

theorem length_of_keyword? {letters text written rest : List Char}
    (h : keyword? letters text = some (written, rest)) :
    letters.length + rest.length = text.length := by
  induction letters generalizing text written with
  | nil => simp only [keyword?, Option.some.injEq, Prod.mk.injEq] at h; simp [h.2]
  | cons letter letters ih =>
    cases text with
    | nil => simp [keyword?] at h
    | cons c text =>
      simp only [keyword?] at h
      split at h
      · obtain ⟨⟨inner, last⟩, hcut, heq⟩ := Option.map_eq_some_iff.1 h
        simp only [Prod.mk.injEq] at heq
        obtain ⟨-, rfl⟩ := heq
        have := ih hcut
        simp only [List.length_cons]; omega
      · simp at h

/-- Whether a word ends before this text. -/
def endsWord : List Char → Bool
  | [] => true
  | c :: _ => !Text.isWordChar c

/-- A whole keyword at the front of a text, as it is written, and the rest. -/
def wholeKeyword? (letters text : List Char) : Option (List Char × List Char) :=
  match keyword? letters text with
  | some (written, rest) => if endsWord rest then some (written, rest) else none
  | none => none

theorem length_of_wholeKeyword? {letters text written rest : List Char}
    (h : wholeKeyword? letters text = some (written, rest)) :
    letters.length + rest.length = text.length := by
  unfold wholeKeyword? at h
  split at h
  · split at h
    · simp only [Option.some.injEq, Prod.mk.injEq] at h
      rename_i hkey _
      rw [← h.2]
      exact length_of_keyword? hkey
    · simp at h
  · simp at h

/-! ## Attributes -/

/-- The attributes that may follow the keyword of a block. -/
def attributes : List (List Char) :=
  ["CONSTANT".toList, "RETAIN".toList, "PERSISTENT".toList, "NON_RETAIN".toList]

/-- An attribute after blanks, as it is written, and the rest. -/
def attribute? (text : List Char) : Option (List Char × List Char) :=
  match text with
  | c :: rest =>
    if Text.isBlank c then attributes.findSome? (wholeKeyword? · (Text.trimStart rest)) else none
  | [] => none

theorem length_of_attribute? {text written rest : List Char}
    (h : attribute? text = some (written, rest)) : rest.length < text.length := by
  cases text with
  | nil => simp [attribute?] at h
  | cons c text =>
    simp only [attribute?] at h
    split at h
    · obtain ⟨letters, -, hkey⟩ := List.exists_of_findSome?_eq_some h
      have hlength := length_of_wholeKeyword? hkey
      have htrim : (Text.trimStart text).length ≤ text.length :=
        (List.dropWhile_suffix _).length_le
      simp only [List.length_cons]; omega
    · simp at h

/-- Reads the attributes at the front of a text: whether one of them is spelled
`CONSTANT`, in any ASCII case, and the rest. -/
def readAttributes (constant : Bool) (text : List Char) : Bool × List Char :=
  match h : attribute? text with
  | none => (constant, text)
  | some (written, rest) =>
    have := length_of_attribute? h
    readAttributes (constant || written.map Char.toUpper == "CONSTANT".toList) rest
  termination_by text.length

theorem length_readAttributes_le (constant : Bool) (text : List Char) :
    (readAttributes constant text).2.length ≤ text.length := by
  fun_induction readAttributes constant text with
  | case1 => simp
  | case2 constant text written rest h hlength ih => omega

/-! ## Openings -/

/-- The block that a keyword opens.  Only ASCII letters make a special block, so a
keyword with a long s in it opens a plain one. -/
def kindOf (ending : List Char) : Kind :=
  (Kind.all.find? (·.ending == ending.map Char.toUpper)).getD .plain

/-- The keyword of a block at the front of a text, as what follows `VAR` in it, and the
rest. -/
def opening? (text : List Char) : Option (List Char × List Char) :=
  match keyword? "VAR".toList text with
  | some (_, rest) => Kind.all.findSome? fun kind => wholeKeyword? kind.ending rest
  | none => none

theorem length_of_opening? {text written rest : List Char}
    (h : opening? text = some (written, rest)) : rest.length < text.length := by
  unfold opening? at h
  split at h
  · rename_i hvar
    obtain ⟨kind, -, hkey⟩ := List.exists_of_findSome?_eq_some h
    have hfirst := length_of_keyword? hvar
    have hsecond := length_of_wholeKeyword? hkey
    have : "VAR".toList.length = 3 := by decide
    omega
  · simp at h

/-- The first block that is opened in a text, and what follows its keyword and
attributes.  The keyword does not continue a word: `before` is the character in front of
the text. -/
def find? (before : Option Char) : List Char → Option (Block × List Char)
  | [] => none
  | c :: rest =>
    let found := if before.any Text.isWordChar then none else opening? (c :: rest)
    match found with
    | some (ending, rest) =>
      let (constant, rest) := readAttributes false rest
      some (⟨kindOf ending, constant⟩, rest)
    | none => find? (some c) rest

theorem length_of_find? {before : Option Char} {text rest : List Char} {block : Block}
    (h : find? before text = some (block, rest)) : rest.length < text.length := by
  induction text generalizing before with
  | nil => simp [find?] at h
  | cons c text ih =>
    simp only [find?] at h
    split at h
    · rename_i found ending after hfound
      have hopen : opening? (c :: text) = some (ending, after) := by
        by_cases hb : before.any Text.isWordChar = true
        · simp [hb] at hfound
        · simpa [hb] using hfound
      have hlength := length_of_opening? hopen
      have hattributes := length_readAttributes_le false after
      simp only [Option.some.injEq, Prod.mk.injEq] at h
      rw [← h.2]
      omega
    · have := ih h
      simp only [List.length_cons]; omega

end Block

end PlcTags.Source
