import Mathlib.Data.List.Induction
import PlcTags.Proofs.Source.Reading

/-!
# Names between quotes

A name between double quotes passes the lexer, and the search for the end of its statement, as it
is written.  The statement itself is taken apart without regard for quotes.  So a declaration
`"name" : Bool;` is read as it is meant exactly if its name looks like no other part of a
declaration (`extract_quoted_iff`, `IsMangled`).  Where it does, it is the first piece of the name
that is read for the name, and this lacks its second quote (`names?_unclosed`).
-/

namespace PlcTags.Source

/-! ## Names that are taken apart -/

/-- The dollar signs at the end of a text are odd in number, so that the last one takes a quote
behind it out of its role. -/
def endsEscaped (text : List Char) : Bool :=
  (text.reverse.takeWhile (· == '$')).length % 2 == 1

/-- Whether a type and a default begin here: the first colon has an equals sign behind it and
something in front of it. -/
def startsDefault (text : List Char) : Bool :=
  !(text.takeWhile (· != ':')).isEmpty && [':', '='].isPrefixOf (text.dropWhile (· != ':'))

/-- Whether a type and a default follow one of the colons. -/
def holdsDefault : List Char → Bool
  | [] => false
  | c :: rest => (c == ':' && startsDefault rest) || holdsDefault rest

/-- Whether the word `AT` begins here, with blanks behind it and no more of them up to the end. -/
def startsAddress (text : List Char) : Bool :=
  (Statement.afterAt? text).any fun rest => rest.all fun c => !Text.isBlank c

/-- Whether the word `AT` stands in a text with one more word at most behind it; `before` is the
character in front of the text. -/
def holdsAddress (before : Char) : List Char → Bool
  | [] => false
  | c :: rest =>
    (!Text.isWordChar before && startsAddress (c :: rest)) || holdsAddress c rest

/-- A name that is read for something else. -/
def IsMangled (name : List Char) : Prop :=
  endsEscaped name = true ∨ ',' ∈ name ∨ holdsDefault name = true ∨ holdsAddress '"' name = true

instance (name : List Char) : Decidable (IsMangled name) :=
  inferInstanceAs (Decidable (_ ∨ _ ∨ _ ∨ _))

example : IsMangled "Motor 1, left".toList ∧ IsMangled "Valve at tank".toList ∧
    IsMangled "1:2:=3".toList ∧ IsMangled "Price in $".toList ∧
    ¬ IsMangled "Look at the valve: 1:2 = 5$$".toList := by
  decide +kernel

/-! ## Declarations -/

/-- A variable of type `Bool` whose name stands between quotes, with the blanks between its
parts. -/
structure Quoted where
  indent : List Char
  name : String
  beforeColon : List Char
  afterColon : List Char
  beforeSemicolon : List Char
  afterSemicolon : List Char
  deriving DecidableEq, Repr

namespace Quoted

structure IsWellFormed (quoted : Quoted) : Prop where
  indent : IsGap quoted.indent
  name : Vendor.siemens.admitsName quoted.name = true
  beforeColon : IsGap quoted.beforeColon
  afterColon : IsGap quoted.afterColon
  beforeSemicolon : IsGap quoted.beforeSemicolon
  afterSemicolon : IsGap quoted.afterSemicolon

instance (quoted : Quoted) : Decidable quoted.IsWellFormed :=
  decidable_of_iff
    (IsGap quoted.indent ∧ Vendor.siemens.admitsName quoted.name = true ∧
      IsGap quoted.beforeColon ∧ IsGap quoted.afterColon ∧ IsGap quoted.beforeSemicolon ∧
      IsGap quoted.afterSemicolon)
    ⟨fun ⟨hindent, hname, hbefore, hafter, hfront, hback⟩ =>
      ⟨hindent, hname, hbefore, hafter, hfront, hback⟩,
      fun h => ⟨h.indent, h.name, h.beforeColon, h.afterColon, h.beforeSemicolon,
        h.afterSemicolon⟩⟩

/-- What follows the colon. -/
def typeText (quoted : Quoted) : List Char :=
  quoted.afterColon ++ "Bool".toList

/-- What follows the name. -/
def tailText (quoted : Quoted) : List Char :=
  '"' :: (quoted.beforeColon ++ ':' :: quoted.typeText)

def statement (quoted : Quoted) : List Char :=
  '"' :: (quoted.name.toList ++ quoted.tailText)

/-- The code up to the semicolon. -/
def code (quoted : Quoted) : List Char :=
  quoted.indent ++ (quoted.statement ++ quoted.beforeSemicolon)

/-- The line of the declaration. -/
def line (quoted : Quoted) : List Char :=
  quoted.code ++ ';' :: quoted.afterSemicolon

/-- What is meant. -/
def declaration (quoted : Quoted) (block : Block) (line : Nat) : Declaration :=
  ⟨quoted.name, "Bool", "", "", "", block, line⟩

end Quoted

/-- What a name holds that the vendor admits. -/
theorem of_admitsName {name : String} (h : Vendor.siemens.admitsName name = true) :
    Text.allBlank name.toList = false ∧ '"' ∉ name.toList ∧ '\n' ∉ name.toList := by
  simp only [Vendor.admitsName, Bool.and_eq_true, Bool.not_eq_true', List.all_eq_true,
    bne_iff_ne] at h
  obtain ⟨⟨hfilled, -⟩, hchars⟩ := h
  refine ⟨hfilled, fun hmem => (hchars _ hmem).1 rfl, fun hmem => ?_⟩
  have hline := (hchars _ hmem).2
  revert hline
  decide

/-! ## The parts of the statement -/

open Statement

variable {quoted : Quoted} {names text : List Char}

theorem startsDefault_colon {type : List Char} (h : ':' ∉ type) (rest : List Char) :
    startsDefault (type ++ ':' :: rest) = (!type.isEmpty && rest.head? == some '=') := by
  obtain ⟨htake, hdrop⟩ := takeWhile_dropWhile_colon h rest
  rw [startsDefault, htake, hdrop]
  rcases rest with - | ⟨c, rest⟩
  · simp [List.isPrefixOf]
  · simp [List.isPrefixOf, Bool.beq_comm]

namespace Quoted

theorem notMem_typeText (h : quoted.IsWellFormed) : ':' ∉ quoted.typeText := by
  rw [typeText, List.mem_append, not_or]
  exact ⟨h.afterColon.notMem (by decide), by decide⟩

/-- **The type that is meant is found** behind the colon that is meant. -/
theorem typeAndDefault?_typeText (h : quoted.IsWellFormed) :
    typeAndDefault? quoted.typeText = some (quoted.typeText, []) :=
  typeAndDefault?_of_notMem (notMem_typeText h) (by simp [typeText])

/-- Behind another colon a type and a default must stand in the name itself. -/
theorem isSome_typeAndDefault?_tailText (h : quoted.IsWellFormed) (text : List Char) :
    (typeAndDefault? (text ++ quoted.tailText)).isSome = startsDefault text := by
  by_cases hmem : ':' ∈ text
  · obtain ⟨type, rest, rfl, hnot⟩ := List.eq_append_cons_of_mem hmem
    rw [startsDefault_colon hnot, List.append_assoc, List.cons_append,
      isSome_typeAndDefault?_colon hnot]
    cases rest <;> rfl
  · have hnot : ':' ∉ text ++ '"' :: quoted.beforeColon := by
      simp only [List.mem_append, List.mem_cons, not_or]
      exact ⟨hmem, by decide, h.beforeColon.notMem (by decide)⟩
    have hsplit : text ++ quoted.tailText =
        (text ++ '"' :: quoted.beforeColon) ++ ':' :: quoted.typeText := by
      simp [tailText]
    have hhead : (quoted.typeText.head? == some '=') = false := by
      refine beq_false_of_ne fun heq => ?_
      have hmem : '=' ∈ quoted.typeText := List.mem_of_head? heq
      rw [typeText, List.mem_append] at hmem
      exact hmem.elim (h.afterColon.notMem (by decide)) (by decide)
    have hdrop : text.dropWhile (· != ':') = [] :=
      List.dropWhile_eq_nil_iff.mpr (bne_colon_of_notMem hmem)
    rw [hsplit, isSome_typeAndDefault?_colon hnot, hhead, startsDefault, hdrop]
    simp [List.isPrefixOf]

end Quoted

theorem holdsDefault_append (front : List Char) {back : List Char}
    (h : holdsDefault back = true) : holdsDefault (front ++ back) = true := by
  induction front with
  | nil => exact h
  | cons c front ih =>
      rw [List.cons_append, holdsDefault, ih, Bool.or_true]

/-- A quote is no part of the word `AT` and none of the blanks behind it. -/
theorem afterAt?_quote (text rest : List Char) :
    afterAt? (text ++ '"' :: rest) = (afterAt? text).map (· ++ '"' :: rest) := by
  have hquote : Text.isBlank '"' = false := by decide
  rcases text with - | ⟨a, - | ⟨t, - | ⟨blank, text⟩⟩⟩
  · rcases rest with - | ⟨c, - | ⟨d, rest⟩⟩ <;> rfl
  · rcases rest with - | ⟨c, rest⟩
    · rfl
    · simp [afterAt?]
  · simp [afterAt?, hquote]
  · show afterAt? (a :: t :: blank :: (text ++ '"' :: rest)) = _
    rw [afterAt?, afterAt?]
    split
    · rw [Option.map_some, Text.trimStart_append_of_not_blank text hquote]
    · rfl

namespace Quoted

/-- **An address is read in a name** only if the name holds the word `AT` and one more word, or a
default. -/
theorem of_addressed?_tailText (h : quoted.IsWellFormed) {statement : Statement}
    (hread : addressed? names (text ++ quoted.tailText) = some statement) :
    names.head?.any Text.isWordChar = false ∧
      (holdsDefault text = true ∨ startsAddress text = true) := by
  obtain ⟨hnames, -, rest, after, hat, hcut, htype⟩ := exists_of_addressed? hread
  refine ⟨hnames, ?_⟩
  obtain ⟨-, haddress, gap, hgap, hsplit⟩ := mem_addressCuts hcut
  rw [tailText, afterAt?_quote, ← tailText] at hat
  obtain ⟨word, hword, rfl⟩ := Option.map_eq_some_iff.mp hat
  obtain ⟨front, rfl⟩ := exists_of_afterAt? hword
  rw [← List.append_assoc] at hsplit
  -- The colon stands behind the quote, or it stands in the name.
  obtain ⟨passed, hpassed, htail⟩ | ⟨passed, hpassed, htail⟩ :=
    List.append_eq_append_iff.mp hsplit
  · right
    rcases passed with - | ⟨c, passed⟩
    · cases htail
    · obtain rfl : '"' = c := (List.cons.inj htail).1
      -- The quote is no blank, so it belongs to the address with all that is in front of it.
      have hblank : ∀ d ∈ word, Text.isBlank d = false := by
        obtain ⟨more, -, hmore⟩ | ⟨more, hmore, -⟩ := List.append_eq_append_iff.mp hpassed
        · have hquote := hgap '"' (hmore ▸ List.mem_append_right _ List.mem_cons_self)
          exact absurd hquote (by decide)
        · exact fun d hd => haddress d (hmore ▸ List.mem_append_left _ hd)
      rw [startsAddress, hword]
      simpa using hblank
  · left
    rcases passed with - | ⟨c, passed⟩
    · cases htail
    · obtain ⟨rfl, rfl⟩ := List.cons.inj htail
      have htype : (typeAndDefault? (passed ++ quoted.tailText)).isSome = true := htype
      rw [isSome_typeAndDefault?_tailText h] at htype
      rw [hpassed]
      refine holdsDefault_append _ (holdsDefault_append _ ?_)
      rw [holdsDefault, htype]
      rfl

/-- One word behind the word `AT` makes an address, with the quote at its end. -/
theorem exists_addressed?_tailText (h : quoted.IsWellFormed) (hstarts : startsAddress text = true)
    (hnames : names.head?.any Text.isWordChar = false) :
    ∃ statement, addressed? names (text ++ quoted.tailText) = some statement := by
  obtain ⟨word, hword, hsolid⟩ : ∃ word, afterAt? text = some word ∧
      ∀ c ∈ word ++ ['"'], Text.isBlank c = false := by
    obtain ⟨word, hword, hall⟩ := (Option.any_eq_true _ _).mp hstarts
    refine ⟨word, hword, List.forall_mem_append.mpr ⟨fun c hc => ?_, ?_⟩⟩
    · simpa using List.all_eq_true.mp hall c hc
    · exact List.forall_mem_singleton.mpr (by decide)
  have hat : afterAt? (text ++ quoted.tailText) =
      some ((word ++ ['"']) ++ (quoted.beforeColon ++ ':' :: quoted.typeText)) := by
    rw [tailText, afterAt?_quote, hword]
    simp
  have hcut : (addressCuts ((word ++ ['"']) ++
      (quoted.beforeColon ++ ':' :: quoted.typeText))).head? =
        some (word ++ ['"'], quoted.typeText) := by
    by_cases hgap : quoted.beforeColon = []
    · rw [hgap, List.nil_append]
      exact head?_addressCuts_of_notMem hsolid (by simp) (notMem_typeText h)
    · exact head?_addressCuts_of_gap _ hsolid (by simp) h.beforeColon.isBlank hgap
  exact ⟨_, addressed?_of_cut hnames hat hcut (typeAndDefault?_typeText h)⟩

/-- **A name is passed over** if it is not taken apart. -/
theorem readFrom?_name (h : quoted.IsWellFormed) {before : Char}
    (hdefault : holdsDefault text = false) (haddress : holdsAddress before text = false) :
    readFrom? (before :: names) (text ++ quoted.tailText) =
      readFrom? (text.reverse ++ before :: names) quoted.tailText := by
  induction text generalizing before names with
  | nil => rfl
  | cons c rest ih =>
      have hnone : tail? (before :: names) (c :: (rest ++ quoted.tailText)) = none := by
        by_cases hc : c = ':'
        · subst hc
          simp only [holdsDefault, beq_self_eq_true, Bool.true_and, Bool.or_eq_false_iff]
            at hdefault
          rw [tail?_colon, Option.map_eq_none_iff, ← Option.not_isSome_iff_eq_none,
            isSome_typeAndDefault?_tailText h, hdefault.1]
          exact Bool.false_ne_true
        · rw [tail?_of_ne_colon hc, ← List.cons_append, Option.eq_none_iff_forall_ne_some]
          intro statement hread
          obtain ⟨hword, happart⟩ := of_addressed?_tailText h hread
          have hword : Text.isWordChar before = false := hword
          rw [hdefault, or_iff_right Bool.false_ne_true] at happart
          rw [holdsAddress, hword, happart] at haddress
          cases haddress
      simp only [holdsDefault, Bool.or_eq_false_iff] at hdefault
      simp only [holdsAddress, Bool.or_eq_false_iff] at haddress
      rw [List.cons_append, readFrom?_cons_of_none (.inr hnone), ih hdefault.2 haddress.2,
        List.reverse_cons, List.append_assoc]
      rfl

/-- **A name that is taken apart** ends where the rest can be read for something else. -/
theorem exists_readFrom?_name (h : quoted.IsWellFormed) {before : Char}
    (happart : holdsDefault text = true ∨ holdsAddress before text = true) :
    ∃ front statement, front <+: text ∧
      readFrom? (before :: names) (text ++ quoted.tailText) = some statement ∧
      statement.names = Text.trim ((before :: names).reverse ++ front) := by
  induction text generalizing before names with
  | nil => simp [holdsDefault, holdsAddress] at happart
  | cons c rest ih =>
      -- The name ends here, or the reason to take it apart lies further on.
      cases htail : tail? (before :: names) (c :: (rest ++ quoted.tailText)) with
      | some statement =>
          refine ⟨[], statement, List.nil_prefix, ?_, ?_⟩
          · exact readFrom?_cons_of_some (List.cons_ne_nil _ _) htail
          · rw [List.append_nil]
            exact names_of_tail? htail
      | none =>
          have hlater : holdsDefault rest = true ∨ holdsAddress c rest = true := by
            simp only [holdsDefault, holdsAddress, Bool.or_eq_true, Bool.and_eq_true, beq_iff_eq,
              Bool.not_eq_true'] at happart
            obtain (⟨rfl, hstarts⟩ | hrest) | ⟨hword, hstarts⟩ | hrest := happart
            · rw [tail?_colon, Option.map_eq_none_iff, ← Option.not_isSome_iff_eq_none,
                isSome_typeAndDefault?_tailText h] at htail
              exact absurd hstarts htail
            · exact .inl hrest
            · obtain ⟨statement, hread⟩ : ∃ statement, addressed? (before :: names)
                  (c :: rest ++ quoted.tailText) = some statement :=
                exists_addressed?_tailText h hstarts hword
              have hc : c ≠ ':' := by
                rintro rfl
                rcases rest with - | ⟨t, - | ⟨blank, rest⟩⟩ <;> cases hstarts
              rw [tail?_of_ne_colon hc] at htail
              exact absurd (htail.symm.trans hread) (Option.some_ne_none _).symm
            · exact .inr hrest
          obtain ⟨front, statement, hfront, hread, hnames⟩ := @ih (before :: names) c hlater
          refine ⟨c :: front, statement, List.cons_prefix_cons.mpr ⟨rfl, hfront⟩, ?_, ?_⟩
          · rw [List.cons_append, readFrom?_cons_of_none (.inr htail), hread]
          · rw [hnames, List.reverse_cons, List.append_assoc]
            rfl

end Quoted

/-! ## What is declared -/

variable {rules : CommentRules}

/-- A text with a quote in front of it and none at its end is no name. -/
theorem name?_unclosed (h : '"' ∉ text) : name? rules ('"' :: text) = none := by
  have hlast : (('"' :: text).length ≥ 2 && ('"' :: text).getLast? == some '"') = false := by
    rcases List.eq_nil_or_concat text with rfl | ⟨front, last, rfl⟩
    · rfl
    · have hne : last ≠ '"' := by
        rintro rfl
        exact h (by simp)
      rw [List.concat_eq_append, ← List.cons_append, List.getLast?_concat]
      simp [hne]
  have hident : Vendor.isIdentifier ('"' :: text) = false := rfl
  unfold name?
  dsimp only
  rw [hident, if_neg]
  · rfl
  · intro hquoted
    simp only [Bool.and_eq_true] at hquoted
    obtain ⟨⟨⟨-, hlength⟩, -⟩, hquote⟩ := hquoted
    rw [hlength, hquote] at hlast
    cases hlast

/-- **Names are not read** if the first piece of them has no second quote. -/
theorem names?_unclosed
    (h : '"' ∉ text ∨ ∃ front back, text = front ++ ',' :: back ∧ '"' ∉ front) :
    ∃ name, names? rules (('"' :: text).splitOn ',') = .error (.badName name) := by
  -- The first piece begins with a quote that is never closed.
  have hfirst : ∀ piece pieces, '"' ∉ piece →
      ∃ name, names? rules (('"' :: piece) :: pieces) = .error (.badName name) := by
    intro piece pieces hpiece
    have htrim : Text.trim ('"' :: piece) = '"' :: Text.trimEnd piece := by
      rw [Text.trim, Text.trimStart_of_not_blank _ (by decide),
        Text.trimEnd_cons_of_not_blank _ (by decide)]
    refine ⟨String.ofList ('"' :: Text.trimEnd piece), ?_⟩
    rw [names?, htrim, name?_unclosed fun hmem => hpiece ((Text.sublist_trimEnd piece).subset hmem)]
  have hcut : ∀ front back, '"' ∉ front → ',' ∉ front →
      ∃ name, names? rules (('"' :: (front ++ ',' :: back)).splitOn ',') =
        .error (.badName name) := by
    intro front back hquote hcomma
    have hne : ∀ c ∈ '"' :: front, (c == ',') = false :=
      List.forall_mem_cons.mpr ⟨by decide, fun c hc => beq_false_of_ne fun heq => hcomma (heq ▸ hc)⟩
    rw [← List.cons_append, List.splitOn, List.splitOnP_append_cons_of_forall_mem hne _ (by decide)]
    exact hfirst front _ hquote
  -- The first comma of the text decides where the first piece ends.
  obtain hquote | ⟨front, back, rfl, hquote⟩ := h
  · by_cases hcomma : ',' ∈ text
    · obtain ⟨front, back, rfl, hnot⟩ := List.eq_append_cons_of_mem hcomma
      exact hcut front back (fun hmem => hquote (List.mem_append_left _ hmem)) hnot
    · have hne : ∀ c ∈ '"' :: text, (c == ',') = false :=
        List.forall_mem_cons.mpr
          ⟨by decide, fun c hc => beq_false_of_ne fun heq => hcomma (heq ▸ hc)⟩
      rw [List.splitOn, List.splitOnP_eq_singleton hne]
      exact hfirst text [] hquote
  · by_cases hcomma : ',' ∈ front
    · obtain ⟨head, tail, rfl, hnot⟩ := List.eq_append_cons_of_mem hcomma
      rw [List.append_assoc, List.cons_append]
      exact hcut head _ (fun hmem => hquote (List.mem_append_left _ hmem)) hnot
    · exact hcut front back hquote hcomma

theorem declarations_of_names? {statement : Statement} {reason : Unreadable}
    (h : names? rules (statement.names.splitOn ',') = .error reason) (block : Block)
    (comment : String) (line : Nat) :
    ∃ reason, statement.declarations rules block comment line = .error reason := by
  unfold Statement.declarations
  dsimp only
  split
  · exact ⟨_, rfl⟩
  · rw [h]
    exact ⟨reason, rfl⟩

namespace Quoted

theorem read?_statement (h : quoted.IsWellFormed)
    (hdefault : holdsDefault quoted.name.toList = false)
    (haddress : holdsAddress '"' quoted.name.toList = false) :
    read? quoted.statement =
      some ⟨'"' :: (quoted.name.toList ++ ['"']), [], quoted.typeText, []⟩ := by
  have hquote : tail? (quoted.name.toList.reverse ++ ['"']) quoted.tailText = none := by
    rw [tailText, tail?_of_ne_colon (by decide), addressed?_eq_none]
    right
    intro rest hat
    have hnone := afterAt?_quote [] (quoted.beforeColon ++ ':' :: quoted.typeText)
    rw [List.nil_append] at hnone
    rw [hnone] at hat
    cases hat
  have hnames : Text.trim ('"' :: (quoted.name.toList ++ '"' :: quoted.beforeColon)) =
      '"' :: (quoted.name.toList ++ ['"']) := by
    have hsplit : '"' :: (quoted.name.toList ++ '"' :: quoted.beforeColon) =
        ('"' :: (quoted.name.toList ++ ['"'])) ++ quoted.beforeColon := by simp
    rw [hsplit, Text.trim_append_blank _ h.beforeColon.isBlank]
    exact Text.trim_of_ends _ (by decide) (by decide)
  rw [read?, statement, readFrom?_cons_of_none (.inl rfl), readFrom?_name h hdefault haddress]
  rw [tailText] at hquote ⊢
  rw [readFrom?_cons_of_none (.inr hquote), readFrom?_separators h.beforeColon.isSeparator]
  refine readFrom?_cons_of_some (by simp) ?_
  rw [tail?_colon, typeAndDefault?_typeText h, Option.map_some]
  simpa using hnames

/-- **A name that is not taken apart is declared.** -/
theorem readDeclarations_statement (h : quoted.IsWellFormed)
    (hcomma : ',' ∉ quoted.name.toList)
    (hdefault : holdsDefault quoted.name.toList = false)
    (haddress : holdsAddress '"' quoted.name.toList = false) (block : Block) (line : Nat) :
    readDeclarations Vendor.siemens.commentRules quoted.statement block "" line =
      .ok [quoted.declaration block line] := by
  -- The quoted name holds no comma, so it is the only name.
  have hne : ∀ c ∈ '"' :: (quoted.name.toList ++ ['"']), (c == ',') = false := by
    intro c hc
    refine beq_false_of_ne ?_
    rintro rfl
    simp [hcomma] at hc
  have htrim : Text.trim ('"' :: (quoted.name.toList ++ ['"'])) =
      '"' :: (quoted.name.toList ++ ['"']) := Text.trim_of_ends _ (by decide) (by decide)
  have hname : name? Vendor.siemens.commentRules ('"' :: (quoted.name.toList ++ ['"'])) =
      some quoted.name.toList := by
    have hfilled := (of_admitsName h.name).1
    have hlast : ('"' :: (quoted.name.toList ++ ['"'])).getLast? = some '"' := by
      rw [← List.cons_append, List.getLast?_concat]
    simp [name?, Vendor.commentRules, hfilled, hlast]
  have hnames : names? Vendor.siemens.commentRules
      (('"' :: (quoted.name.toList ++ ['"'])).splitOn ',') = .ok [quoted.name] := by
    rw [List.splitOn, List.splitOnP_eq_singleton hne, names?, htrim, hname]
    simp only [String.ofList_toList]
    rfl
  have htype : Text.squeeze quoted.typeText = "Bool".toList := by
    have hsolid : ∀ c ∈ "Bool".toList, Text.isBlank c = false :=
      List.all_iff_forall_prop.mp (by decide)
    have hsqueeze : Text.squeeze (quoted.afterColon ++ ("Bool".toList ++ [])) = "Bool".toList :=
      Text.squeeze_of_word h.afterColon.isBlank (List.forall_mem_nil _) hsolid (by decide)
    rwa [List.append_nil] at hsqueeze
  rw [readDeclarations, read?_statement h hdefault haddress]
  simp only [Statement.declarations, htype, hnames]
  rfl

/-- **A name that is taken apart declares nothing.** -/
theorem readDeclarations_statement_of_apart (h : quoted.IsWellFormed)
    (happart : ',' ∈ quoted.name.toList ∨ holdsDefault quoted.name.toList = true ∨
      holdsAddress '"' quoted.name.toList = true) (block : Block) (line : Nat) :
    ∃ reason, readDeclarations Vendor.siemens.commentRules quoted.statement block "" line =
      .error reason := by
  obtain ⟨-, hquote, -⟩ := of_admitsName h.name
  -- Either the names end inside of the quotes, or a comma stands there.
  obtain ⟨statement, hread, text, hnames, hpieces⟩ : ∃ statement,
      read? quoted.statement = some statement ∧ ∃ text, statement.names = '"' :: text ∧
        ('"' ∉ text ∨ ∃ front back, text = front ++ ',' :: back ∧ '"' ∉ front) := by
    by_cases hinside : holdsDefault quoted.name.toList = true ∨
        holdsAddress '"' quoted.name.toList = true
    · obtain ⟨front, statement, hfront, hread, hnames⟩ :=
        @exists_readFrom?_name quoted [] _ h '"' hinside
      refine ⟨statement, ?_, Text.trimEnd front, ?_, .inl fun hmem => ?_⟩
      · rw [read?, Quoted.statement, readFrom?_cons_of_none (.inl rfl), hread]
      · rw [hnames, List.reverse_singleton, List.singleton_append, Text.trim,
          Text.trimStart_of_not_blank _ (by decide), Text.trimEnd_cons_of_not_blank _ (by decide)]
      · exact hquote (hfront.subset ((Text.sublist_trimEnd front).subset hmem))
    · have hcomma := happart.resolve_right hinside
      simp only [not_or, Bool.not_eq_true] at hinside
      obtain ⟨front, back, heq, -⟩ := List.eq_append_cons_of_mem hcomma
      refine ⟨_, read?_statement h hinside.1 hinside.2, _, rfl, .inr ⟨front, back ++ ['"'], ?_, ?_⟩⟩
      · rw [heq, List.append_assoc]
        rfl
      · exact fun hmem => hquote (heq ▸ List.mem_append_left _ hmem)
  obtain ⟨name, hname⟩ : ∃ name, names? Vendor.siemens.commentRules (statement.names.splitOn ',') =
      .error (.badName name) := hnames ▸ names?_unclosed hpieces
  rw [readDeclarations, hread]
  exact declarations_of_names? hname block "" line

end Quoted

/-! ## The line -/

theorem foldl_escapes (text : List Char) : text.foldl escapes false = endsEscaped text := by
  induction text using List.reverseRecOn with
  | nil => rfl
  | append_singleton text c ih =>
      rw [List.foldl_append, ih, endsEscaped, endsEscaped, List.reverse_append]
      by_cases hc : c = '$'
      · subst hc
        obtain heven | hodd := Nat.mod_two_eq_zero_or_one
          (text.reverse.takeWhile (· == '$')).length
        · have hnext : ((text.reverse.takeWhile (· == '$')).length + 1) % 2 = 1 := by omega
          simp [escapes, heven, hnext]
        · have hnext : ((text.reverse.takeWhile (· == '$')).length + 1) % 2 = 0 := by omega
          simp [escapes, hodd, hnext]
      · simp [escapes, hc]

theorem forall_of_isCode {next : Option Char} (h : isCode rules next text = true) :
    ∀ c ∈ text, isQuote rules c = false ∧ c ≠ '\n' := by
  induction text with
  | nil => exact List.forall_mem_nil _
  | cons c rest ih =>
      simp only [isCode, Bool.and_eq_true, Bool.not_eq_true', bne_iff_ne] at h
      obtain ⟨⟨⟨⟨⟨hline, -⟩, -⟩, -⟩, hquote⟩, hrest⟩ := h
      exact List.forall_mem_cons.mpr ⟨⟨hquote, hline⟩, ih hrest⟩

namespace Quoted

/-- What stands between the name and the semicolon. -/
def behind (quoted : Quoted) : List Char :=
  quoted.beforeColon ++ ':' :: (quoted.typeText ++ quoted.beforeSemicolon)

theorem code_eq (quoted : Quoted) : quoted.code =
    quoted.indent ++ (('"' :: (quoted.name.toList ++ ['"'])) ++ quoted.behind) := by
  simp [code, statement, tailText, behind]

theorem isPlain_behind (h : quoted.IsWellFormed) :
    IsPlain Vendor.siemens.commentRules quoted.behind := by
  have hbool : IsPlain Vendor.siemens.commentRules "Bool".toList :=
    isPlain_identifier (by decide) (by decide)
  have hcolon := isSeparator_around h.beforeColon (by decide : isSeparator ':' = true)
    fun d hd => (h.afterColon.isSeparator d hd).1
  have hall := (isPlain_nil.append_gap hcolon (by simp) hbool).append_blank h.beforeSemicolon
  simpa [behind, typeText] using hall

theorem endsCode_behind (h : quoted.IsWellFormed) : EndsCode quoted.behind := by
  refine endsCode_of_isSeparator fun c hc => ?_
  rw [behind] at hc
  cases hgap : quoted.beforeColon with
  | nil =>
      rw [hgap] at hc
      obtain rfl := Option.some.inj hc
      decide
  | cons d gap =>
      rw [hgap] at hc
      obtain rfl := Option.some.inj hc
      exact (h.beforeColon.isSeparator d (hgap ▸ List.mem_cons_self)).1

/-- The name holds neither the quotes around it nor the end of its line. -/
theorem forall_name (h : quoted.IsWellFormed) :
    ∀ c ∈ quoted.name.toList, c ≠ '"' ∧ c ≠ '\n' := by
  obtain ⟨-, hquote, hline⟩ := of_admitsName h.name
  exact fun c hc => ⟨fun heq => hquote (heq ▸ hc), fun heq => hline (heq ▸ hc)⟩

theorem passes_indent (h : quoted.IsWellFormed) :
    Passes Vendor.siemens.commentRules quoted.indent :=
  (isPlain_gap h.indent).passes

/-- A quote neither completes a mark nor continues a word. -/
theorem endsCode_quote (rest : List Char) : EndsCode ('"' :: rest) := by
  rintro c ⟨⟩
  decide +kernel

/-- **The code is passed on** if the name does not take its second quote out of its role. -/
theorem passes_code (h : quoted.IsWellFormed) (hends : endsEscaped quoted.name.toList = false) :
    Passes Vendor.siemens.commentRules quoted.code := by
  have hname : Passes Vendor.siemens.commentRules ('"' :: (quoted.name.toList ++ ['"'])) :=
    passes_quoted rfl (forall_name h) ((foldl_escapes _).trans hends)
  have hlast : EndsCode ('"' :: (quoted.name.toList ++ ['"'])).reverse := by
    rw [← List.cons_append, List.reverse_append]
    exact endsCode_quote _
  have hall := hname.append (isPlain_behind h).passes hlast (endsCode_behind h)
    ⟨List.cons_ne_nil _ _, by simp [behind]⟩
  rw [code_eq]
  by_cases hindent : quoted.indent = []
  · rwa [hindent, List.nil_append]
  · refine (passes_indent h).append hall ?_ (endsCode_quote _) ⟨hindent, List.cons_ne_nil _ _⟩
    exact endsCode_of_isSeparator fun c hc =>
      (h.indent.isSeparator c (List.mem_reverse.mp (List.mem_of_head? hc))).1

/-- What is quoted if the second quote is not taken for one. -/
theorem forall_rest (h : quoted.IsWellFormed) :
    ∀ c ∈ quoted.behind ++ ';' :: quoted.afterSemicolon, c ≠ '"' ∧ c ≠ '\n' := by
  have hquote : isQuote Vendor.siemens.commentRules '"' = true := rfl
  refine List.forall_mem_append.mpr ⟨fun c hc => ?_, List.forall_mem_cons.mpr ⟨by decide, ?_⟩⟩
  · obtain ⟨hnot, hline⟩ := forall_of_isCode (isPlain_behind h).code c hc
    refine ⟨?_, hline⟩
    rintro rfl
    rw [hquote] at hnot
    cases hnot
  · intro c hc
    have hgap := h.afterSemicolon c hc
    refine ⟨?_, ?_⟩ <;> rintro rfl <;> revert hgap <;> decide

theorem line_eq (quoted : Quoted) : quoted.line = quoted.indent ++ '"' :: (quoted.name.toList ++
    '"' :: (quoted.behind ++ ';' :: quoted.afterSemicolon)) := by
  simp [line, code_eq]

theorem afterQuoted_escaped (quote : Char) : afterQuoted quote true quote = .quoted quote false :=
  rfl

/-- **The line is passed on as it is**, also where the quotes do not end in it. -/
theorem linesFrom_line (h : quoted.IsWellFormed) (number : Nat) (rest : List Char) :
    linesFrom Vendor.siemens.commentRules .code (.start number) (quoted.line ++ '\n' :: rest) =
      ⟨number, String.ofList quoted.line, ""⟩ ::
        linesFrom Vendor.siemens.commentRules .code (.start (number + 1)) rest := by
  cases hends : endsEscaped quoted.name.toList with
  | false =>
      have hpass := (passes_code h hends).linesFrom_semicolon h.afterSemicolon number ('\n' :: rest)
      rw [line, hpass, linesFrom, if_pos rfl, Draft.finish, List.reverse_reverse]
      rfl
  | true =>
      rw [line_eq, List.append_assoc, List.cons_append,
        (passes_indent h).lines _ _ (endsCode_quote _), linesFrom_quote rfl, List.append_assoc,
        linesFrom_quoted (forall_name h), foldl_escapes, hends, List.cons_append, linesFrom,
        if_neg (by decide)]
      simp only [readChar, afterQuoted_escaped]
      rw [linesFrom_quoted (forall_rest h), linesFrom, if_pos rfl]
      simp [Draft.finish, Draft.addCode, Draft.start, Mode.atLineBreak]
      rfl

/-- Where the quotes do not end, neither does the statement. -/
theorem cut_line_of_endsEscaped (h : quoted.IsWellFormed)
    (hends : endsEscaped quoted.name.toList = true) :
    cut Vendor.siemens.commentRules quoted.line = .lineEnd quoted.line := by
  have hrest : ∀ before, cutFrom Vendor.siemens.commentRules (.quoted '"' false) before
      (quoted.behind ++ ';' :: quoted.afterSemicolon) =
        .lineEnd (before.reverse ++ (quoted.behind ++ ';' :: quoted.afterSemicolon)) := by
    intro before
    rw [← List.append_nil (quoted.behind ++ ';' :: quoted.afterSemicolon),
      cutFrom_quoted fun c hc => (forall_rest h c hc).1, cutFrom]
    simp
  rw [cut, line_eq, (passes_indent h).cut [] _ endsCode_nil (endsCode_quote _),
    cutFrom_quote rfl, cutFrom_quoted fun c hc => (forall_name h c hc).1, foldl_escapes, hends,
    cutFrom, afterQuoted_escaped, hrest]
  simp

/-! ## The source -/

theorem trim_code (h : quoted.IsWellFormed) : Text.trim quoted.code = quoted.statement := by
  have hlast : quoted.statement = '"' :: ((quoted.name.toList ++ '"' :: (quoted.beforeColon ++
      ':' :: (quoted.afterColon ++ "Boo".toList))) ++ ['l']) := by
    simp [statement, tailText, typeText]
  have htrim : Text.trim quoted.statement = quoted.statement := by
    rw [hlast]
    exact Text.trim_of_ends _ (by decide) (by decide)
  rw [code, Text.trim_blank_append _ h.indent.isBlank,
    Text.trim_append_blank _ h.beforeSemicolon.isBlank, htrim]

/-- The reader behind the line that closes the block. -/
def readerBehind (quoted : Quoted) (block : Block) : Reader :=
  let opened : Reader := { block := some block, sawBlock := true }
  (opened.readLine Vendor.siemens.commentRules ⟨2, String.ofList quoted.line, ""⟩).readLine
    Vendor.siemens.commentRules ⟨3, String.ofList endVar, ""⟩

/-- **The source is read** line by line. -/
theorem foldl_lines (h : quoted.IsWellFormed) {block : Block} {source : String}
    (hsource : IsSource source (sourceText line [⟨block, [quoted]⟩]))
    (hblock : (quoted.readerBehind block).block = none) :
    (lines Vendor.siemens.commentRules source).foldl
        (Reader.readLine Vendor.siemens.commentRules) {} = quoted.readerBehind block := by
  have htext : sourceText line [⟨block, [quoted]⟩] = block.header ++ '\n' :: (quoted.line ++
      '\n' :: (endVar ++ '\n' :: [])) := by
    simp [sourceText, Section.text]
  refine foldl_lines_of_isSource hsource hblock ?_
  rw [htext, linesFrom_words (words_header block), List.foldl_cons,
    Reader.isSettled_start.readLine_header rfl, linesFrom_line h, List.foldl_cons,
    linesFrom_words words_endVar, List.foldl_cons]
  exact (Reader.readLine_empty .siemens 4 _).2.2 hblock

/-- What is found is what the reader has found behind the block. -/
theorem extract_eq_readerBehind (h : quoted.IsWellFormed) {block : Block} {source : String}
    (hsource : IsSource source (sourceText line [⟨block, [quoted]⟩]))
    (hblock : (quoted.readerBehind block).block = none) :
    extract .siemens source =
      ⟨.siemens, (quoted.readerBehind block).entries, (quoted.readerBehind block).diagnostics⟩ := by
  have hsaw : (quoted.readerBehind block).sawBlock = true :=
    ((Reader.grows_readLine _ _ _).trans (Reader.grows_readLine _ _ _)).sawBlock rfl
  have hfinish : ∀ lastLine isBlank, (quoted.readerBehind block).finish
      Vendor.siemens.commentRules lastLine isBlank = quoted.readerBehind block := by
    intro lastLine isBlank
    rw [Reader.finish, hblock]
    exact if_pos (by rw [hsaw, Bool.true_or])
  unfold extract
  simp only [foldl_lines h hsource hblock, hfinish]

/-- **Where the quotes end**, the statement in the line is read. -/
theorem readerBehind_of_ends (h : quoted.IsWellFormed)
    (hends : endsEscaped quoted.name.toList = false) (block : Block) :
    quoted.readerBehind block =
      { ({ block := some block, sawBlock := true } : Reader).addRead 2 quoted.statement
          (readDeclarations Vendor.siemens.commentRules quoted.statement block "" 2) with
        block := none } := by
  have hopened := Reader.isSettled_start.opened block
  have hfilled : Text.allBlank quoted.statement = false := by
    rw [statement, Text.allBlank, List.all_cons]
    rfl
  have hcut : cut Vendor.siemens.commentRules (String.ofList quoted.line).toList =
      .semicolon quoted.code quoted.afterSemicolon := by
    rw [String.toList_ofList]
    exact cut_semicolon (passes_code h hends) _
  have hread : ({ block := some block, sawBlock := true } : Reader).readLine
      Vendor.siemens.commentRules ⟨2, String.ofList quoted.line, ""⟩ =
        ({ block := some block, sawBlock := true } : Reader).addRead 2 quoted.statement
          (readDeclarations Vendor.siemens.commentRules quoted.statement block "" 2) :=
    hopened.readLine_semicolon rfl hcut h.afterSemicolon (cut_gap h.afterSemicolon) (trim_code h)
      hfilled
  rw [readerBehind, hread]
  exact (hopened.addRead _ _ _).readLine_endVar (Reader.block_addRead ..) 3

/-- **Where they do not**, the statement has not ended when its block does. -/
theorem readerBehind_of_endsEscaped (h : quoted.IsWellFormed)
    (hends : endsEscaped quoted.name.toList = true) (block : Block) :
    (quoted.readerBehind block).block = none ∧
      (quoted.readerBehind block).diagnostics ≠ [] := by
  have hopened := Reader.isSettled_start.opened block
  have hfilled : Text.allBlank (Text.trim quoted.line) = false := by
    rw [Text.allBlank_trim, Text.allBlank, List.all_eq_false]
    exact ⟨';', by simp [line], by decide⟩
  refine @Reader.readLine_endVar_of_pending .siemens _ block ?_ ?_ 3
  · rw [Reader.readLine, hopened.resume, String.toList_ofList, Reader.readRest_inside rfl,
      cut_line_of_endsEscaped h hends]
    simp only [hopened.append_code rfl hfilled]
  · rw [Reader.readLine, hopened.resume, String.toList_ofList, Reader.readRest_inside rfl,
      cut_line_of_endsEscaped h hends]
    simp only [hopened.append_code rfl hfilled]
    exact hfilled

end Quoted

/-- **A name between quotes is declared as it is** exactly if it is not read for something else. -/
theorem extract_quoted_iff {quoted : Quoted} {block : Block} {source : String}
    (h : quoted.IsWellFormed)
    (hsource : IsSource source (sourceText Quoted.line [⟨block, [quoted]⟩])) :
    extract .siemens source = ⟨.siemens, [.declared (quoted.declaration block 2)], []⟩ ↔
      ¬ IsMangled quoted.name.toList := by
  constructor
  · intro heq hmangled
    cases hends : endsEscaped quoted.name.toList with
    | true =>
        obtain ⟨hblock, hne⟩ := Quoted.readerBehind_of_endsEscaped h hends block
        rw [Quoted.extract_eq_readerBehind h hsource hblock] at heq
        exact hne (congrArg Extraction.diagnostics heq)
    | false =>
        have happart := hmangled.resolve_left (Bool.eq_false_iff.mp hends)
        obtain ⟨reason, hread⟩ := Quoted.readDeclarations_statement_of_apart h happart block 2
        have hreader := Quoted.readerBehind_of_ends h hends block
        rw [Quoted.extract_eq_readerBehind h hsource (by rw [hreader]), hreader, hread] at heq
        exact List.cons_ne_nil _ _ (congrArg Extraction.diagnostics heq)
  · intro hnot
    simp only [IsMangled, not_or, Bool.not_eq_true] at hnot
    obtain ⟨hends, hcomma, hdefault, haddress⟩ := hnot
    have hread := Quoted.readDeclarations_statement h hcomma hdefault haddress block 2
    have hreader := Quoted.readerBehind_of_ends h hends block
    rw [Quoted.extract_eq_readerBehind h hsource (by rw [hreader]), hreader, hread]
    rfl

/-! ## Two names -/

/-- A source with this name. -/
def quotedSource (name : String) : String :=
  "VAR\n    \"" ++ name ++ "\" : Bool;\nEND_VAR"

def quotedDeclaration (name : String) : Quoted :=
  ⟨[' ', ' ', ' ', ' '], name, [' '], [' '], [], []⟩

/-- Marks of comments, apostrophes and colons make no difference. -/
theorem extract_quotedSource_valve :
    extract .siemens (quotedSource "Look at the valve's (* 1:2 $$") =
      ⟨.siemens, [.declared ⟨"Look at the valve's (* 1:2 $$", "Bool", "", "", "",
        ⟨.plain, false⟩, 2⟩], []⟩ := by
  have hwell : (quotedDeclaration "Look at the valve's (* 1:2 $$").IsWellFormed := by
    decide +kernel
  have hsource : IsSource (quotedSource "Look at the valve's (* 1:2 $$")
      (sourceText Quoted.line
        [⟨⟨.plain, false⟩, [quotedDeclaration "Look at the valve's (* 1:2 $$"]⟩]) :=
    .inr (by decide +kernel)
  exact (extract_quoted_iff hwell hsource).mpr (by decide +kernel)

/-- A comma cuts a name in two, and neither piece has both quotes. -/
theorem extract_quotedSource_motor :
    Vendor.siemens.admitsName "Motor 1, left" = true ∧
      extract .siemens (quotedSource "Motor 1, left") =
        ⟨.siemens, [.unread 2 "\"Motor 1, left\" : Bool" (.badName "\"Motor 1")],
          [{ severity := .error, code := .partialDeclaration, line := some 2,
             message := "cannot read declaration '\"Motor 1, left\" : Bool': " ++
               "'\"Motor 1' is not a valid name" }]⟩ := by
  have hentries : (extract .siemens (quotedSource "Motor 1, left")).entries =
      [.unread 2 "\"Motor 1, left\" : Bool" (.badName "\"Motor 1")] := by
    decide +kernel
  have hdiagnostics : (extract .siemens (quotedSource "Motor 1, left")).diagnostics =
      [{ severity := .error, code := .partialDeclaration, line := some 2,
         message := "cannot read declaration '\"Motor 1, left\" : Bool': " ++
           "'\"Motor 1' is not a valid name" }] := by
    decide +kernel
  exact ⟨by decide, congr (congrArg (Extraction.mk .siemens) hentries) hdiagnostics⟩

end PlcTags.Source
