import PlcTags.Proofs.Source.Statement

/-!
# Declarations as they are spelled

A declaration `names AT address : TYPE := default;` with all the blanks between its parts
(`Spelled`), what is meant by it (`Spelled.declarations`) and how it is written
(`Spelled.line`).

Some spellings stray (`Spelled.Strays`): an address reaches as far as it can, so it swallows
the type if a default follows and neither side of the colon has a blank, and a name that is
spelled `AT` can take what follows it for an address.
-/

namespace PlcTags.Source

/-! ## Spellings -/

/-- No blanks. -/
def IsSolid (text : List Char) : Prop :=
  ∀ c ∈ text, Text.isBlank c = false

instance (text : List Char) : Decidable (IsSolid text) :=
  decidable_of_iff (text.all fun c => !Text.isBlank c) (by simp [IsSolid])

/-- A default as it is meant: a token is written as it is, a literal between apostrophes. -/
inductive Default where
  | token (text : String)
  | literal (body : String)
  deriving DecidableEq, Repr

namespace Default

def value : Default → String
  | token text => text
  | literal body => body

def written : Default → List Char
  | token text => text.toList
  | literal body => '\'' :: (body.toList ++ ['\''])

/-- A text on one line without apostrophes and without the sign that would take one out of
its role. -/
def IsBody (body : List Char) : Prop :=
  ∀ c ∈ body, c ≠ '\'' ∧ c ≠ '$' ∧ c ≠ '\n'

instance (body : List Char) : Decidable (IsBody body) :=
  decidable_of_iff (body.all fun c => c != '\'' && c != '$' && c != '\n')
    (by simp [IsBody, and_assoc])

/-- A token is plain and has no blanks; a literal may hold anything between its apostrophes. -/
def IsAdmitted (rules : CommentRules) : Default → Prop
  | token text =>
    text.toList ≠ [] ∧ IsSolid text.toList ∧ IsPlain rules text.toList
  | literal body => IsBody body.toList

instance (rules : CommentRules) : (default : Default) → Decidable (default.IsAdmitted rules)
  | token _ => inferInstanceAs (Decidable (_ ∧ _ ∧ _))
  | literal body => inferInstanceAs (Decidable (IsBody body.toList))

end Default

/-- Nothing but blanks within a line. -/
def IsGap (text : List Char) : Prop :=
  ∀ c ∈ text, isGap c = true

instance (text : List Char) : Decidable (IsGap text) :=
  decidable_of_iff (text.all isGap) List.all_eq_true

/-- An identifier other than the word that ends a block. -/
def IsName (name : String) : Prop :=
  Vendor.isIdentifier name.toList = true ∧ name.toList.map Char.toUpper ≠ endVar

instance (name : String) : Decidable (IsName name) :=
  inferInstanceAs (Decidable (_ ∧ _))

/-- The vendor accepts the address. -/
def IsAccepted (vendor : Vendor) (address : String) : Prop :=
  ∃ element, Address.parse vendor address = .ok element

instance (vendor : Vendor) (address : String) : Decidable (IsAccepted vendor address) :=
  match h : Address.parse vendor address with
  | .ok element => isTrue ⟨element, h⟩
  | .error _ => isFalse fun ⟨_, haccepted⟩ => nomatch h.symm.trans haccepted

/-- A further name, with the blanks around the comma in front of it. -/
structure NextName where
  before : List Char
  after : List Char
  name : String
  deriving DecidableEq, Repr

namespace NextName

def text (next : NextName) : List Char :=
  next.before ++ ',' :: (next.after ++ next.name.toList)

structure IsWellFormed (next : NextName) : Prop where
  before : IsGap next.before
  after : IsGap next.after
  name : IsName next.name

instance (next : NextName) : Decidable next.IsWellFormed :=
  decidable_of_iff (IsGap next.before ∧ IsGap next.after ∧ IsName next.name)
    ⟨fun ⟨hbefore, hafter, hname⟩ => ⟨hbefore, hafter, hname⟩,
      fun h => ⟨h.before, h.after, h.name⟩⟩

end NextName

/-- An address, with the blanks around the word `AT` in front of it. -/
structure Placed where
  before : List Char
  after : List Char
  address : String
  deriving DecidableEq, Repr

namespace Placed

def text (placed : Placed) : List Char :=
  placed.before ++ (['A', 'T'] ++ (placed.after ++ placed.address.toList))

structure IsWellFormed (vendor : Vendor) (placed : Placed) : Prop where
  before : IsGap placed.before ∧ placed.before ≠ []
  after : IsGap placed.after ∧ placed.after ≠ []
  noBlank : IsSolid placed.address.toList
  accepted : IsAccepted vendor placed.address

instance (vendor : Vendor) (placed : Placed) : Decidable (placed.IsWellFormed vendor) :=
  decidable_of_iff
    ((IsGap placed.before ∧ placed.before ≠ []) ∧ (IsGap placed.after ∧ placed.after ≠ []) ∧
      IsSolid placed.address.toList ∧ IsAccepted vendor placed.address)
    ⟨fun ⟨hbefore, hafter, hblank, haccepted⟩ => ⟨hbefore, hafter, hblank, haccepted⟩,
      fun h => ⟨h.before, h.after, h.noBlank, h.accepted⟩⟩

end Placed

/-- A default, with the blanks around the sign in front of it. -/
structure Initial where
  before : List Char
  after : List Char
  default : Default
  deriving DecidableEq, Repr

namespace Initial

def text (initial : Initial) : List Char :=
  initial.before ++ ':' :: '=' :: (initial.after ++ initial.default.written)

structure IsWellFormed (vendor : Vendor) (initial : Initial) : Prop where
  before : IsGap initial.before
  after : IsGap initial.after
  default : initial.default.IsAdmitted vendor.commentRules

instance (vendor : Vendor) (initial : Initial) : Decidable (initial.IsWellFormed vendor) :=
  decidable_of_iff (IsGap initial.before ∧ IsGap initial.after ∧
      initial.default.IsAdmitted vendor.commentRules)
    ⟨fun ⟨hbefore, hafter, hdefault⟩ => ⟨hbefore, hafter, hdefault⟩,
      fun h => ⟨h.before, h.after, h.default⟩⟩

end Initial

/-- A declaration with the blanks between its parts. -/
structure Spelled where
  indent : List Char
  first : String
  others : List NextName
  placed : Option Placed
  beforeColon : List Char
  afterColon : List Char
  typeName : String
  initial : Option Initial
  beforeSemicolon : List Char
  afterSemicolon : List Char
  deriving DecidableEq, Repr

namespace Spelled

structure IsWellFormed (vendor : Vendor) (spelled : Spelled) : Prop where
  indent : IsGap spelled.indent
  first : IsName spelled.first
  others : ∀ next ∈ spelled.others, next.IsWellFormed
  placed : ∀ placed ∈ spelled.placed, placed.IsWellFormed vendor
  beforeColon : IsGap spelled.beforeColon
  afterColon : IsGap spelled.afterColon
  typeName : spelled.typeName ∈ vendor.typeNames.map Prod.fst
  initial : ∀ initial ∈ spelled.initial, initial.IsWellFormed vendor
  beforeSemicolon : IsGap spelled.beforeSemicolon
  afterSemicolon : IsGap spelled.afterSemicolon

instance (vendor : Vendor) (spelled : Spelled) : Decidable (spelled.IsWellFormed vendor) :=
  decidable_of_iff
    (IsGap spelled.indent ∧ IsName spelled.first ∧ (∀ next ∈ spelled.others, next.IsWellFormed) ∧
      (∀ placed ∈ spelled.placed, placed.IsWellFormed vendor) ∧ IsGap spelled.beforeColon ∧
      IsGap spelled.afterColon ∧ spelled.typeName ∈ vendor.typeNames.map Prod.fst ∧
      (∀ initial ∈ spelled.initial, initial.IsWellFormed vendor) ∧
      IsGap spelled.beforeSemicolon ∧ IsGap spelled.afterSemicolon)
    ⟨fun ⟨hindent, hfirst, hothers, hplaced, hbefore, hafter, htype, hinitial, hfront, hback⟩ =>
      ⟨hindent, hfirst, hothers, hplaced, hbefore, hafter, htype, hinitial, hfront, hback⟩,
      fun h => ⟨h.indent, h.first, h.others, h.placed, h.beforeColon, h.afterColon, h.typeName,
        h.initial, h.beforeSemicolon, h.afterSemicolon⟩⟩

/-! ### What is meant -/

def names (spelled : Spelled) : List String :=
  spelled.first :: spelled.others.map NextName.name

def address (spelled : Spelled) : String :=
  (spelled.placed.map Placed.address).getD ""

def defaultValue (spelled : Spelled) : String :=
  (spelled.initial.map fun initial => initial.default.value).getD ""

/-- One variable for each name, all with the same attributes. -/
def declarations (spelled : Spelled) (block : Block) (description : String) (line : Nat) :
    List Declaration :=
  spelled.names.map fun name =>
    { name
      typeName := spelled.typeName
      address := spelled.address
      defaultValue := spelled.defaultValue
      description
      block
      line }

/-! ### What is written -/

def initialText (spelled : Spelled) : List Char :=
  (spelled.initial.map Initial.text).getD []

/-- What follows the colon. -/
def typeText (spelled : Spelled) : List Char :=
  spelled.afterColon ++ (spelled.typeName.toList ++ spelled.initialText)

/-- What follows the names. -/
def tailText (spelled : Spelled) : List Char :=
  (spelled.placed.map Placed.text).getD [] ++ (spelled.beforeColon ++ ':' :: spelled.typeText)

/-- The names with their commas. -/
def namesText (spelled : Spelled) : List Char :=
  spelled.first.toList ++ spelled.others.flatMap NextName.text

/-- The statement from its first name to its last part. -/
def statement (spelled : Spelled) : List Char :=
  spelled.namesText ++ spelled.tailText

/-- The line of the declaration. -/
def line (spelled : Spelled) : List Char :=
  spelled.indent ++ (spelled.statement ++
    (spelled.beforeSemicolon ++ ';' :: spelled.afterSemicolon))

/-! ### Spellings that stray -/

/-- Whether the word `AT`, once it is taken for itself in place of a name, has something
behind it that reads as an address and a colon; `rest` are the further names. -/
def TakesAddress (spelled : Spelled) : List NextName → Prop
  | [] => spelled.beforeColon ≠ [] ∧ spelled.afterColon = [] ∧ spelled.initial ≠ none
  | next :: rest =>
    next.before ≠ [] ∧ next.after = [] ∧ ∀ other ∈ rest, other.before = [] ∧ other.after = []

instance (spelled : Spelled) : (rest : List NextName) → Decidable (spelled.TakesAddress rest)
  | [] => inferInstanceAs (Decidable (_ ∧ _ ∧ _))
  | _ :: rest => inferInstanceAs (Decidable (_ ∧ _ ∧ ∀ other ∈ rest, _))

/-- Whether one of these names is taken for the word `AT`. -/
def StraysIn (spelled : Spelled) : List NextName → Prop
  | [] => False
  | next :: rest =>
    (Statement.isAt next.name.toList = true ∧ spelled.TakesAddress rest) ∨ spelled.StraysIn rest

instance (spelled : Spelled) : (others : List NextName) → Decidable (spelled.StraysIn others)
  | [] => inferInstanceAs (Decidable False)
  | _ :: rest =>
    have : Decidable (spelled.StraysIn rest) := instDecidableStraysIn spelled rest
    inferInstanceAs (Decidable (_ ∨ _))

/-- The blanks shift the parts of the declaration. -/
def Strays (spelled : Spelled) : Prop :=
  match spelled.placed with
  | some _ => spelled.beforeColon = [] ∧ spelled.afterColon = [] ∧ spelled.initial ≠ none
  | none => spelled.StraysIn spelled.others

instance (spelled : Spelled) : Decidable spelled.Strays :=
  match h : spelled.placed with
  | some _ => decidable_of_iff (spelled.beforeColon = [] ∧ spelled.afterColon = [] ∧
      spelled.initial ≠ none) (by rw [Strays, h])
  | none => decidable_of_iff (spelled.StraysIn spelled.others) (by rw [Strays, h])

end Spelled

/-! ## Facts about the parts -/

variable {vendor : Vendor}

theorem isBlank_of_isGap {c : Char} (h : isGap c = true) : Text.isBlank c = true :=
  (Bool.and_eq_true_iff.mp h).1

theorem isSeparator_of_isGap {c : Char} (h : isGap c = true) :
    isSeparator c = true ∧ c ≠ ':' := by
  refine ⟨by simp [isSeparator, h], ?_⟩
  rintro rfl
  revert h
  decide

theorem IsGap.isBlank {gap : List Char} (h : IsGap gap) : ∀ c ∈ gap, Text.isBlank c = true :=
  fun c hc => isBlank_of_isGap (h c hc)

theorem IsGap.isSeparator {gap : List Char} (h : IsGap gap) :
    ∀ c ∈ gap, Source.isSeparator c = true ∧ c ≠ ':' :=
  fun c hc => isSeparator_of_isGap (h c hc)

theorem IsGap.notMem {gap : List Char} (h : IsGap gap) {c : Char} (hc : isGap c = false) :
    c ∉ gap := by
  intro hmem
  rw [h c hmem] at hc
  cases hc

/-- A gap that is not empty begins with a blank. -/
theorem IsGap.head? {gap : List Char} (h : IsGap gap) (hne : gap ≠ []) (rest : List Char) :
    ∀ c ∈ (gap ++ rest).head?, Text.isBlank c = true := by
  obtain ⟨c, tail, rfl⟩ := List.exists_cons_of_ne_nil hne
  rintro d ⟨⟩
  exact isBlank_of_isGap (h c List.mem_cons_self)

theorem IsName.isNameChar {name : String} (h : IsName name) :
    name.toList ≠ [] ∧ ∀ c ∈ name.toList, Source.isNameChar c = true :=
  Vendor.isAlphanum_of_isIdentifier h.1

theorem IsName.noBlank {name : String} (h : IsName name) :
    ∀ c ∈ name.toList, Text.isBlank c = false :=
  (Vendor.not_blank_of_isIdentifier h.1).2

theorem IsName.noColon {name : String} (h : IsName name) : ':' ∉ name.toList :=
  fun hmem => ne_of_isNameChar (h.isNameChar.2 _ hmem) (by decide) rfl

/-- A name begins with a character that is no blank and no colon. -/
theorem IsName.exists_cons {name : String} (h : IsName name) :
    ∃ c rest, name.toList = c :: rest ∧ Text.isBlank c = false ∧ c ≠ ':' := by
  obtain ⟨c, rest, heq⟩ := List.exists_cons_of_ne_nil h.isNameChar.1
  have hmem : c ∈ name.toList := heq ▸ List.mem_cons_self
  exact ⟨c, rest, heq, h.noBlank c hmem, ne_of_isNameChar (h.isNameChar.2 c hmem) (by decide)⟩

/-- The names of types are names. -/
theorem isName_typeName {name : String} (h : name ∈ vendor.typeNames.map Prod.fst) :
    IsName name := by
  have hall : ∀ vendor : Vendor, ∀ name ∈ vendor.typeNames.map Prod.fst,
      Vendor.isIdentifier name.toList = true ∧ name.toList.map Char.toUpper ≠ endVar := by
    intro vendor
    cases vendor <;> decide
  exact hall vendor name h

namespace Placed

/-- An address begins with a character that is no blank and no colon. -/
theorem IsWellFormed.exists_cons {placed : Placed} (h : placed.IsWellFormed vendor) :
    ∃ c rest, placed.address.toList = c :: rest ∧ Text.isBlank c = false ∧ c ≠ ':' := by
  obtain ⟨element, helement⟩ := h.accepted
  obtain ⟨-, d, tail, heq, hd⟩ := Address.isMade_of_parse helement h.noBlank
  obtain ⟨c, rest, hcons, rfl, -⟩ := List.map_eq_cons_iff.mp heq
  refine ⟨c, rest, hcons, h.noBlank c (hcons ▸ List.mem_cons_self), ?_⟩
  rintro rfl
  exact hd rfl

end Placed

namespace Default

variable {rules : CommentRules} {default : Default}

/-- A default has no blanks at its ends. -/
theorem trim_written (h : default.IsAdmitted rules) :
    Text.trim default.written = default.written := by
  cases default with
  | token text => exact Text.trim_of_forall_not_blank h.2.1
  | literal body => exact Text.trim_of_ends _ (by decide) (by decide)

theorem written_ne_nil (h : default.IsAdmitted rules) : default.written ≠ [] := by
  cases default with
  | token text => exact h.1
  | literal body => exact List.cons_ne_nil _ _

/-- A default is read without the apostrophes of a literal. -/
theorem unquote_written (h : default.IsAdmitted rules) :
    String.ofList (Statement.unquote default.written) = default.value := by
  cases default with
  | token text =>
      obtain ⟨hne, -, hplain⟩ := h
      obtain ⟨c, rest, heq⟩ := List.exists_cons_of_ne_nil hne
      have hquote : c ≠ '\'' := by
        rintro rfl
        have hcode := hplain.code
        simp [heq, isCode, isQuote] at hcode
      have hunquote : Statement.unquote text.toList = text.toList := by
        rw [heq]
        unfold Statement.unquote
        split
        · rename_i heq
          exact absurd (List.cons.inj heq).1 hquote
        · rfl
      rw [written, hunquote, String.ofList_toList]
      rfl
  | literal body =>
      -- The body of a literal has no apostrophe and no sign that would be unescaped.
      have hunescape : ∀ text : List Char, IsBody text →
          Statement.unescape text = text := by
        intro text htext
        induction text with
        | nil => rfl
        | cons c rest ih =>
            obtain ⟨hc, hrest⟩ := List.forall_mem_cons.mp htext
            unfold Statement.unescape
            split
            · rename_i heq
              exact absurd (List.cons.inj heq).1 hc.2.1
            · rename_i heq
              obtain ⟨rfl, rfl⟩ := List.cons.inj heq
              rw [ih hrest]
            · rename_i heq
              cases heq
      rw [written, Statement.unquote, List.getLast?_concat, if_pos rfl, List.dropLast_concat,
        hunescape _ h, String.ofList_toList]
      rfl

end Default

end PlcTags.Source
