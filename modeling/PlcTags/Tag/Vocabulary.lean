import PlcTags.Text.Trim

/-!
# The words of the tag model

The closed vocabularies that a tag is described with: controller families, data
types, scopes, memory areas and categories.  Each value has one word, and most are
also read from looser spellings: blanks around the word and its case do not matter,
and some values have further names.
-/

namespace PlcTags

/-- A text that names no value of a vocabulary. -/
structure UnknownWord where
  vocabulary : String
  text : String
  deriving DecidableEq, Repr

def UnknownWord.message (fault : UnknownWord) : String :=
  "Unknown " ++ fault.vocabulary ++ ": " ++ fault.text

/-- The spelling under which a word is looked up. -/
def looseSpelling (text : String) : String :=
  (Text.trimmed text).toLower

/-! ## Controller families -/

inductive Vendor where
  | rockwell
  | siemens
  | beckhoff
  deriving DecidableEq, Repr, Inhabited

namespace Vendor

def all : List Vendor := [rockwell, siemens, beckhoff]

def word : Vendor → String
  | rockwell => "rockwell"
  | siemens => "siemens"
  | beckhoff => "beckhoff"

/-- Every name of the vendor: its word, its letter and its product names. -/
def names : Vendor → List String
  | rockwell => ["rockwell", "a", "ab", "allen-bradley", "allen_bradley"]
  | siemens => ["siemens", "b", "s7", "tia"]
  | beckhoff => ["beckhoff", "c", "twincat", "codesys"]

def ofWord? (word : String) : Option Vendor :=
  all.find? (·.word == word)

def read (text : String) : Except UnknownWord Vendor :=
  match all.find? (·.names.contains (looseSpelling text)) with
  | some vendor => .ok vendor
  | none => .error ⟨"vendor", looseSpelling text⟩

end Vendor

/-! ## Data types -/

inductive DataType where
  | bool
  | int16
  | int32
  | real
  | string
  | timer
  | counter
  deriving DecidableEq, Repr, Inhabited

namespace DataType

def all : List DataType := [bool, int16, int32, real, string, timer, counter]

def word : DataType → String
  | bool => "bool"
  | int16 => "int16"
  | int32 => "int32"
  | real => "real"
  | string => "string"
  | timer => "timer"
  | counter => "counter"

def ofWord? (word : String) : Option DataType :=
  all.find? (·.word == word)

/-- The fault repeats the text as it was given. -/
def read (text : String) : Except UnknownWord DataType :=
  match ofWord? (looseSpelling text) with
  | some dataType => .ok dataType
  | none => .error ⟨"data type", text⟩

end DataType

/-! ## Scopes -/

inductive Scope where
  | global
  | «local»
  | input
  | output
  deriving DecidableEq, Repr, Inhabited

namespace Scope

def all : List Scope := [global, «local», input, output]

def word : Scope → String
  | global => "global"
  | «local» => "local"
  | input => "input"
  | output => "output"

def names : Scope → List String
  | global => ["global", "public"]
  | «local» => ["local", "private"]
  | input => ["input"]
  | output => ["output"]

/-- Inputs and outputs are expected to be wired to an address. -/
def isWired : Scope → Bool
  | input | output => true
  | global | «local» => false

def ofWord? (word : String) : Option Scope :=
  all.find? (·.word == word)

def read (text : String) : Except UnknownWord Scope :=
  match all.find? (·.names.contains (looseSpelling text)) with
  | some scope => .ok scope
  | none => .error ⟨"scope", looseSpelling text⟩

end Scope

/-! ## Memory areas -/

inductive Area where
  | input
  | output
  | memory
  deriving DecidableEq, Repr, Inhabited

namespace Area

def all : List Area := [input, output, memory]

def word : Area → String
  | input => "input"
  | output => "output"
  | memory => "memory"

def ofWord? (word : String) : Option Area :=
  all.find? (·.word == word)

end Area

/-! ## Categories -/

inductive Category where
  | input
  | output
  | memory
  | temp
  | constant
  deriving DecidableEq, Repr, Inhabited

namespace Category

def all : List Category := [input, output, memory, temp, constant]

def word : Category → String
  | input => "input"
  | output => "output"
  | memory => "memory"
  | temp => "temp"
  | constant => "constant"

def ofWord? (word : String) : Option Category :=
  all.find? (·.word == word)

def read (text : String) : Except UnknownWord Category :=
  match ofWord? (looseSpelling text) with
  | some category => .ok category
  | none => .error ⟨"category", looseSpelling text⟩

/-- The category of a tag that states none: the area of its address decides, and
the scope where there is no address. -/
def infer (scope : Scope) : Option Area → Category
  | some .input => input
  | some .output => output
  | some .memory => memory
  | none =>
    match scope with
    | .input => input
    | .output => output
    | .global | .local => memory

/-- Temporaries and constants keep their category whatever their address. -/
def isFixed : Category → Bool
  | temp | constant => true
  | input | output | memory => false

end Category

end PlcTags
