import PlcTags.Proofs.Source.Reading

/-!
# Canonical sources

The usual way to write a declaration down is `first, second AT address : TYPE := default;`
in a line of its own, one space between its parts, with its description as a comment behind
it (`Clause.text`).  Whatever is written so is read back (`extract_canonical`): such a line is
the line of a declaration that does not stray, because there is a space on either side of its
colon and none in front of its commas.
-/

namespace PlcTags.Source

/-- A declaration with a description. -/
structure Clause where
  first : String
  others : List String
  address : Option String
  typeName : String
  default : Option Default
  description : Option String
  deriving DecidableEq, Repr

namespace Clause

def names (clause : Clause) : List String :=
  clause.first :: clause.others

/-- The line of the declaration. -/
def text (clause : Clause) : List Char :=
  clause.first.toList ++ clause.others.flatMap (fun name => ", ".toList ++ name.toList) ++
    (clause.address.elim [] fun address => " AT ".toList ++ address.toList) ++
    " : ".toList ++ clause.typeName.toList ++
    (clause.default.elim [] fun default => " := ".toList ++ default.written) ++ ";".toList ++
    (clause.description.elim [] fun description => " // ".toList ++ description.toList)

example : String.ofList (text ⟨"Start", ["Stop"], some "%IX0.0", "BOOL", some (.token "TRUE"),
    some "both buttons"⟩) = "Start, Stop AT %IX0.0 : BOOL := TRUE; // both buttons" := by
  decide

structure IsWellFormed (vendor : Vendor) (clause : Clause) : Prop where
  names : ∀ name ∈ clause.names, IsName name
  address : ∀ address ∈ clause.address, IsSolid address.toList ∧ IsAccepted vendor address
  typeName : clause.typeName ∈ vendor.typeNames.map Prod.fst
  default : ∀ default ∈ clause.default, default.IsAdmitted vendor.commentRules
  description : ∀ description ∈ clause.description,
    '\n' ∉ description.toList ∧ Text.squeeze description.toList = description.toList

instance (vendor : Vendor) (clause : Clause) : Decidable (clause.IsWellFormed vendor) :=
  decidable_of_iff
    ((∀ name ∈ clause.names, IsName name) ∧
      (∀ address ∈ clause.address, IsSolid address.toList ∧ IsAccepted vendor address) ∧
      clause.typeName ∈ vendor.typeNames.map Prod.fst ∧
      (∀ default ∈ clause.default, default.IsAdmitted vendor.commentRules) ∧
      ∀ description ∈ clause.description,
        '\n' ∉ description.toList ∧ Text.squeeze description.toList = description.toList)
    ⟨fun ⟨hnames, haddress, htype, hdefault, hdescription⟩ =>
      ⟨hnames, haddress, htype, hdefault, hdescription⟩,
      fun h => ⟨h.names, h.address, h.typeName, h.default, h.description⟩⟩

end Clause

/-- What is declared in a line: one variable for each name. -/
def Numbered.declared (numbered : Numbered Clause) : List Declaration :=
  numbered.line.names.map fun name =>
    { name
      typeName := numbered.line.typeName
      address := numbered.line.address.getD ""
      defaultValue := (numbered.line.default.map Default.value).getD ""
      description := numbered.line.description.getD ""
      block := numbered.block
      line := numbered.number }

/-! ## The blanks of a canonical line -/

namespace Clause

variable {vendor : Vendor} {clause : Clause}

def spelled (clause : Clause) : Spelled where
  indent := []
  first := clause.first
  others := clause.others.map fun name => ⟨[], [' '], name⟩
  placed := clause.address.map fun address => ⟨[' '], [' '], address⟩
  beforeColon := [' ']
  afterColon := [' ']
  typeName := clause.typeName
  initial := clause.default.map fun default => ⟨[' '], [' '], default⟩
  beforeSemicolon := []
  afterSemicolon := clause.description.elim [] fun _ => [' ']

def noted (clause : Clause) : Noted where
  spelled := clause.spelled
  comment := clause.description.map fun description => ' ' :: description.toList

theorem text_noted (clause : Clause) : clause.noted.text = clause.text := by
  have hothers : (clause.others.map fun name => (⟨[], [' '], name⟩ : NextName)).flatMap
      NextName.text = clause.others.flatMap fun name => ", ".toList ++ name.toList := by
    rw [List.flatMap_map]
    rfl
  obtain ⟨first, others, address, typeName, default, description⟩ := clause
  cases address <;> cases default <;> cases description <;>
    simp_all [noted, spelled, text, Noted.text, Spelled.line, Spelled.statement,
      Spelled.namesText, Spelled.tailText, Spelled.typeText, Spelled.initialText, Placed.text,
      Initial.text, Spelled.commentText]

theorem isGap_space : IsGap [' '] :=
  List.forall_mem_singleton.mpr (by decide)

theorem isWellFormed_noted (h : clause.IsWellFormed vendor) : clause.noted.IsWellFormed vendor := by
  have hnil : IsGap [] := List.forall_mem_nil _
  refine ⟨⟨hnil, h.names _ List.mem_cons_self, ?_, ?_, isGap_space, isGap_space, h.typeName, ?_,
    hnil, ?_⟩, ?_⟩
  · intro next hnext
    obtain ⟨name, hname, rfl⟩ := List.mem_map.mp hnext
    exact ⟨hnil, isGap_space, h.names name (List.mem_cons_of_mem _ hname)⟩
  · intro placed hplaced
    obtain ⟨address, haddress, rfl⟩ := Option.map_eq_some_iff.mp hplaced
    obtain ⟨hblank, haccepted⟩ := h.address address haddress
    exact ⟨⟨isGap_space, List.cons_ne_nil _ _⟩, ⟨isGap_space, List.cons_ne_nil _ _⟩, hblank,
      haccepted⟩
  · intro initial hinitial
    obtain ⟨default, hdefault, rfl⟩ := Option.map_eq_some_iff.mp hinitial
    exact ⟨isGap_space, isGap_space, h.default default hdefault⟩
  · rw [noted, spelled]
    cases clause.description with
    | none => exact hnil
    | some description => exact isGap_space
  · intro text htext
    obtain ⟨description, hdescription, rfl⟩ := Option.map_eq_some_iff.mp htext
    exact List.not_mem_cons_of_ne_of_not_mem (by decide) (h.description description hdescription).1

/-- **A canonical line does not stray.** -/
theorem not_strays_noted (clause : Clause) : ¬ clause.noted.spelled.Strays := by
  have hothers : ∀ others : List String, ¬ clause.noted.spelled.StraysIn
      (others.map fun name => ⟨[], [' '], name⟩) := by
    intro others
    induction others with
    | nil => exact id
    | cons name others ih =>
        rintro (⟨-, htakes⟩ | hlater)
        · -- Behind the last name there is a blank after the colon, and behind any other there is
          -- none before the comma.
          cases others with
          | nil => exact List.cons_ne_nil _ _ htakes.2.1
          | cons next others => exact htakes.1 rfl
        · exact ih hlater
  intro hstrays
  unfold Spelled.Strays at hstrays
  split at hstrays
  · exact List.cons_ne_nil _ _ hstrays.1
  · exact hothers clause.others hstrays

theorem description_noted (h : clause.IsWellFormed vendor) :
    clause.noted.description = clause.description.getD "" := by
  rw [Noted.description, noted]
  cases hdescription : clause.description with
  | none => rfl
  | some description =>
      obtain ⟨-, hsqueeze⟩ := h.description description hdescription
      have hspace : Text.squeeze ([' '] ++ description.toList) =
          Text.squeeze description.toList := by
        rw [Text.squeeze, Text.squeeze, Text.words_gap_append _ isGap_space.isBlank]
      have hwords : Text.squeeze (' ' :: description.toList) = description.toList :=
        hspace.trans hsqueeze
      simp only [Option.map_some, Option.getD_some, hwords, String.ofList_toList]

theorem declarations_noted (h : clause.IsWellFormed vendor) (number : Nat) (block : Block) :
    Numbered.declarations ⟨number, block, clause.noted⟩ =
      Numbered.declared ⟨number, block, clause⟩ := by
  have hnames : clause.spelled.names = clause.names := by
    rw [Spelled.names, spelled, names, List.map_map]
    exact congrArg _ (List.map_id _)
  have haddress : clause.spelled.address = clause.address.getD "" := by
    rw [Spelled.address, spelled]
    cases clause.address <;> rfl
  have hdefault : clause.spelled.defaultValue = (clause.default.map Default.value).getD "" := by
    rw [Spelled.defaultValue, spelled]
    cases clause.default <;> rfl
  have hspelled : clause.noted.spelled = clause.spelled := rfl
  simp only [Numbered.declarations, Spelled.declarations, Numbered.declared, description_noted h,
    hspelled, hnames, haddress, hdefault]
  rfl

end Clause

/-! ## Sources -/

variable {vendor : Vendor}

/-- **Canonical sources are read back**: the variables of every line with all that is said of
them there, in their order, and nothing is reported. -/
theorem extract_canonical {parts : List (Section Clause)} {source : String}
    (h : ∀ part ∈ parts, ∀ clause ∈ part.lines, clause.IsWellFormed vendor)
    (hsource : IsSource source (sourceText Clause.text parts)) :
    extract vendor source =
      ⟨vendor, ((numbered 1 parts).flatMap Numbered.declared).map .declared, []⟩ := by
  have htext : sourceText Clause.text parts =
      sourceText Noted.text (parts.map (Section.map Clause.noted)) := by
    rw [sourceText_map]
    exact congrArg (sourceText · parts) (funext fun clause => (Clause.text_noted clause).symm)
  have hdeclared : (numbered 1 (parts.map (Section.map Clause.noted))).flatMap
      Numbered.declarations = (numbered 1 parts).flatMap Numbered.declared := by
    rw [numbered_map, List.flatMap_map]
    exact List.flatMap_congr fun found hfound =>
      Clause.declarations_noted (forall_numbered.mpr h found hfound) _ _
  rw [htext] at hsource
  rw [← hdeclared]
  refine extract_of_not_strays ?_ ?_ hsource
  · intro part hpart noted hnoted
    obtain ⟨part, hmem, rfl⟩ := List.mem_map.mp hpart
    obtain ⟨clause, hclause, rfl⟩ := List.mem_map.mp hnoted
    exact Clause.isWellFormed_noted (h part hmem clause hclause)
  · intro part hpart noted hnoted
    obtain ⟨part, -, rfl⟩ := List.mem_map.mp hpart
    obtain ⟨clause, -, rfl⟩ := List.mem_map.mp hnoted
    exact Clause.not_strays_noted clause

/-- Two blocks: a name that is spelled like a keyword, an address with a colon in it, and a
literal that holds marks. -/
def pumpSections : List (Section Clause) :=
  [⟨⟨.input, false⟩, [⟨"AT", ["Pump"], some "I:1/0", "BOOL", some (.literal "; // END_VAR"),
      some "first pump"⟩]⟩,
    ⟨⟨.global, true⟩, [⟨"Level", [], none, "DINT", some (.token "16#FF"), none⟩]⟩]

def pumpSource : String :=
  "VAR_INPUT\nAT, Pump AT I:1/0 : BOOL := '; // END_VAR'; // first pump\nEND_VAR\n" ++
    "VAR_GLOBAL CONSTANT\nLevel : DINT := 16#FF;\nEND_VAR"

theorem extract_pumpSource :
    extract .rockwell pumpSource =
      ⟨.rockwell,
        [.declared ⟨"AT", "BOOL", "I:1/0", "; // END_VAR", "first pump", ⟨.input, false⟩, 2⟩,
          .declared ⟨"Pump", "BOOL", "I:1/0", "; // END_VAR", "first pump", ⟨.input, false⟩, 2⟩,
          .declared ⟨"Level", "DINT", "", "16#FF", "", ⟨.global, true⟩, 5⟩], []⟩ := by
  have hparts : ∀ part ∈ pumpSections, ∀ clause ∈ part.lines, clause.IsWellFormed .rockwell := by
    decide
  have hsource : IsSource pumpSource (sourceText Clause.text pumpSections) :=
    .inr (by decide +kernel)
  exact extract_canonical hparts hsource

end PlcTags.Source
