import PlcTags.Proofs.Source.Pieces
import PlcTags.Proofs.Source.Spacing

/-!
# Line breaks inside a declaration

Line breaks between the tokens of a declaration make no difference to what is extracted from a
source, unless a declaration breaks off, and then a problem is reported (`extract_spread_iff`).
It breaks off where the lines before could be a whole declaration: in front of the
semicolon, and behind an address that holds a colon, which could be the name of a type
(`Spelled.BreaksOff`).
-/

namespace PlcTags.Source

variable {vendor : Vendor}

namespace Default

/-- A token, and no colon in it. -/
def IsColonFree : Default → Prop
  | token text => ':' ∉ text.toList
  | literal _ => False

instance : (default : Default) → Decidable default.IsColonFree
  | token _ => inferInstanceAs (Decidable (¬ _))
  | literal _ => inferInstanceAs (Decidable False)

theorem IsColonFree.exists_token {default : Default} (h : default.IsColonFree) :
    ∃ text, default = .token text ∧ ':' ∉ text.toList := by
  cases default with
  | token text => exact ⟨text, rfl, h⟩
  | literal body => exact h.elim

/-- A token that ends with the sign of a default. -/
def EndsWithSign : Default → Prop
  | token text => [':', '='] <:+ text.toList
  | literal _ => False

instance : (default : Default) → Decidable default.EndsWithSign
  | token _ => inferInstanceAs (Decidable (_ <:+ _))
  | literal _ => inferInstanceAs (Decidable False)

theorem IsColonFree.not_endsWithSign {default : Default} (h : default.IsColonFree) :
    ¬ default.EndsWithSign := by
  obtain ⟨text, rfl, hcolon⟩ := h.exists_token
  exact fun hends => hcolon (hends.subset List.mem_cons_self)

end Default

/-! ## The tokens of a declaration -/

namespace NextName

def tokens (next : NextName) : List Token :=
  [⟨next.before, [',']⟩, ⟨next.after, next.name.toList⟩]

/-- The same name with other blanks around the comma. -/
def mapGaps (f : List Char → List Char) (next : NextName) : NextName :=
  { next with before := f next.before, after := f next.after }

end NextName

namespace Placed

def tokens (placed : Placed) : List Token :=
  [⟨placed.before, ['A', 'T']⟩, ⟨placed.after, placed.address.toList⟩]

/-- The same address with other blanks around the word `AT`. -/
def mapGaps (f : List Char → List Char) (placed : Placed) : Placed :=
  { placed with before := f placed.before, after := f placed.after }

end Placed

namespace Initial

def tokens (initial : Initial) : List Token :=
  [⟨initial.before, [':', '=']⟩, ⟨initial.after, initial.default.written⟩]

/-- The same default with other blanks around the sign in front of it. -/
def mapGaps (f : List Char → List Char) (initial : Initial) : Initial :=
  { initial with before := f initial.before, after := f initial.after }

end Initial

namespace Spelled

variable {spelled : Spelled}

/-- The tokens behind the first name, up to the colon. -/
def frontTokens (spelled : Spelled) : List Token :=
  spelled.others.flatMap NextName.tokens ++ (spelled.placed.map Placed.tokens).getD []

/-- The tokens from the colon on. -/
def typeTokens (spelled : Spelled) : List Token :=
  ⟨spelled.beforeColon, [':']⟩ :: ⟨spelled.afterColon, spelled.typeName.toList⟩ ::
    (spelled.initial.map Initial.tokens).getD []

/-- The tokens behind the first name. -/
def tokens (spelled : Spelled) : List Token :=
  spelled.frontTokens ++ spelled.typeTokens

/-- The statement up to the colon. -/
def front (spelled : Spelled) : List Char :=
  spelled.first.toList ++ Token.spell spelled.frontTokens

theorem front_eq (spelled : Spelled) :
    spelled.front = spelled.namesText ++ (spelled.placed.map Placed.text).getD [] := by
  have hothers : Token.spell (spelled.others.flatMap NextName.tokens) =
      spelled.others.flatMap NextName.text := by
    rw [Token.spell, List.flatMap_assoc]
    exact List.flatMap_congr fun next _ => by simp [NextName.tokens, NextName.text]
  rw [front, frontTokens, Token.spell_append, hothers]
  cases hplaced : spelled.placed <;> simp [namesText, Token.spell, Placed.tokens, Placed.text]

theorem statement_eq (spelled : Spelled) :
    spelled.statement = spelled.front ++ (spelled.beforeColon ++ ':' :: spelled.typeText) := by
  rw [front_eq, statement, tailText, List.append_assoc]

theorem spell_tokens (spelled : Spelled) :
    spelled.first.toList ++ Token.spell spelled.tokens = spelled.statement := by
  rw [statement_eq, front, tokens, Token.spell_append]
  cases hinitial : spelled.initial <;>
    simp [typeTokens, typeText, initialText, hinitial, Token.spell, Initial.tokens, Initial.text]

/-! ## Other blanks -/

/-- The declaration with other blanks between its tokens. -/
def mapGaps (f : List Char → List Char) (spelled : Spelled) : Spelled :=
  { spelled with
    others := spelled.others.map (NextName.mapGaps f)
    placed := spelled.placed.map (Placed.mapGaps f)
    beforeColon := f spelled.beforeColon
    afterColon := f spelled.afterColon
    initial := spelled.initial.map (Initial.mapGaps f)
    beforeSemicolon := f spelled.beforeSemicolon }

/-- The declaration with a blank for each line break. -/
def flat (spelled : Spelled) : Spelled :=
  spelled.mapGaps (List.map soft)

/-- The declaration as it reaches the reader. -/
def joined (spelled : Spelled) : Spelled :=
  spelled.mapGaps joinGap

variable {f g : List Char → List Char}

theorem frontTokens_mapGaps (f : List Char → List Char) (spelled : Spelled) :
    (spelled.mapGaps f).frontTokens = spelled.frontTokens.map (Token.mapGap f) := by
  have hothers : (spelled.others.map (NextName.mapGaps f)).flatMap NextName.tokens =
      (spelled.others.flatMap NextName.tokens).map (Token.mapGap f) := by
    rw [List.flatMap_map, List.map_flatMap]
    rfl
  rw [frontTokens, frontTokens, List.map_append, ← hothers]
  cases hplaced : spelled.placed <;>
    simp [mapGaps, Placed.mapGaps, hplaced, Token.mapGap, Placed.tokens]

theorem tokens_mapGaps (f : List Char → List Char) (spelled : Spelled) :
    (spelled.mapGaps f).tokens = spelled.tokens.map (Token.mapGap f) := by
  rw [tokens, tokens, frontTokens_mapGaps, List.map_append]
  cases hinitial : spelled.initial <;>
    simp [typeTokens, mapGaps, Initial.mapGaps, hinitial, Token.mapGap, Initial.tokens]

theorem names_mapGaps (f : List Char → List Char) (spelled : Spelled) :
    (spelled.mapGaps f).names = spelled.names := by
  rw [names, names, mapGaps, List.map_map]
  rfl

/-- The blanks do not change what is meant. -/
theorem declarations_mapGaps (f : List Char → List Char) (spelled : Spelled) (block : Block)
    (description : String) (line : Nat) :
    (spelled.mapGaps f).declarations block description line =
      spelled.declarations block description line := by
  have haddress : (spelled.mapGaps f).address = spelled.address := by
    cases hplaced : spelled.placed <;> simp [address, mapGaps, Placed.mapGaps, hplaced]
  have hdefault : (spelled.mapGaps f).defaultValue = spelled.defaultValue := by
    cases hinitial : spelled.initial <;> simp [defaultValue, mapGaps, Initial.mapGaps, hinitial]
  rw [declarations, declarations, names_mapGaps, haddress, hdefault]
  rfl

theorem straysIn_mapGaps (hf : ∀ gap, f gap = [] ↔ gap = []) (others : List NextName) :
    (spelled.mapGaps f).StraysIn (others.map (NextName.mapGaps f)) ↔ spelled.StraysIn others := by
  have hinitial : (spelled.mapGaps f).initial = none ↔ spelled.initial = none :=
    Option.map_eq_none_iff
  induction others with
  | nil => exact Iff.rfl
  | cons next rest ih =>
      refine or_congr (and_congr_right fun _ => ?_) ih
      cases rest with
      | nil =>
          exact and_congr (not_congr (hf _)) (and_congr (hf _) (not_congr hinitial))
      | cons next rest =>
          refine and_congr (not_congr (hf _)) (and_congr (hf _) ?_)
          simp [NextName.mapGaps, hf]

/-- Whether a declaration strays is decided by where there are blanks at all. -/
theorem strays_mapGaps (hf : ∀ gap, f gap = [] ↔ gap = []) :
    (spelled.mapGaps f).Strays ↔ spelled.Strays := by
  have hinitial : (spelled.mapGaps f).initial = none ↔ spelled.initial = none :=
    Option.map_eq_none_iff
  cases hplaced : spelled.placed with
  | none =>
      have hnone : (spelled.mapGaps f).placed = none := by simp [mapGaps, hplaced]
      rw [Strays, Strays, hplaced, hnone]
      exact straysIn_mapGaps hf spelled.others
  | some placed =>
      have hsome : (spelled.mapGaps f).placed = some (placed.mapGaps f) := by
        simp [mapGaps, hplaced]
      rw [Strays, Strays, hplaced, hsome]
      exact and_congr (hf _) (and_congr (hf _) (not_congr hinitial))

/-- Blanks for other blanks, where there are any. -/
theorem IsWellFormed.mapGaps (h : (spelled.mapGaps f).IsWellFormed vendor)
    (hg : ∀ gap, IsGap (f gap) → IsGap (g gap) ∧ (f gap ≠ [] → g gap ≠ [])) :
    (spelled.mapGaps g).IsWellFormed vendor where
  indent := h.indent
  first := h.first
  others next hnext := by
    obtain ⟨other, hother, rfl⟩ := List.mem_map.mp hnext
    have hwell := h.others _ (List.mem_map_of_mem hother)
    exact ⟨(hg _ hwell.before).1, (hg _ hwell.after).1, hwell.name⟩
  placed placed hplaced := by
    obtain ⟨other, hother, rfl⟩ := Option.map_eq_some_iff.mp hplaced
    have hwell := h.placed _ (Option.map_eq_some_iff.mpr ⟨other, hother, rfl⟩)
    exact ⟨⟨(hg _ hwell.before.1).1, (hg _ hwell.before.1).2 hwell.before.2⟩,
      ⟨(hg _ hwell.after.1).1, (hg _ hwell.after.1).2 hwell.after.2⟩, hwell.noBlank,
      hwell.accepted⟩
  beforeColon := (hg _ h.beforeColon).1
  afterColon := (hg _ h.afterColon).1
  typeName := h.typeName
  initial initial hinitial := by
    obtain ⟨other, hother, rfl⟩ := Option.map_eq_some_iff.mp hinitial
    have hwell := h.initial _ (Option.map_eq_some_iff.mpr ⟨other, hother, rfl⟩)
    exact ⟨(hg _ hwell.before).1, (hg _ hwell.after).1, hwell.default⟩
  beforeSemicolon := (hg _ h.beforeSemicolon).1
  afterSemicolon := h.afterSemicolon

/-! ## Spread declarations -/

/-- A declaration with line breaks between its tokens, and a default that is a token without a
colon. -/
structure IsSpread (vendor : Vendor) (spelled : Spelled) : Prop where
  wellFormed : spelled.flat.IsWellFormed vendor
  initial : ∀ initial ∈ spelled.initial, initial.default.IsColonFree

instance (vendor : Vendor) (spelled : Spelled) : Decidable (spelled.IsSpread vendor) :=
  decidable_of_iff
    (spelled.flat.IsWellFormed vendor ∧ ∀ initial ∈ spelled.initial, initial.default.IsColonFree)
    ⟨fun ⟨hwell, hinitial⟩ => ⟨hwell, hinitial⟩, fun h => ⟨h.wellFormed, h.initial⟩⟩

theorem isWellFormed_of_mem_tokens (h : spelled.IsWellFormed vendor)
    (htoken : ∀ initial ∈ spelled.initial, ∃ text, initial.default = .token text) :
    ∀ token ∈ spelled.tokens, token.IsWellFormed := by
  -- No mark of the language is empty or has a blank.
  have hmark : ∀ mark ∈ [[','], ['A', 'T'], [':'], [':', '=']], mark ≠ [] ∧ IsSolid mark := by
    decide
  have hname := isName_typeName h.typeName
  refine List.forall_mem_append.mpr ⟨List.forall_mem_append.mpr ⟨fun token hmem => ?_, ?_⟩,
    List.forall_mem_cons.mpr ⟨⟨h.beforeColon.isBlank, hmark [':'] (by decide)⟩,
      List.forall_mem_cons.mpr ⟨⟨h.afterColon.isBlank, hname.isNameChar.1, hname.noBlank⟩, ?_⟩⟩⟩
  · obtain ⟨next, hnext, hmem⟩ := List.mem_flatMap.mp hmem
    have hwell := h.others next hnext
    have hboth : ∀ token ∈ next.tokens, token.IsWellFormed :=
      List.forall_mem_cons.mpr ⟨⟨hwell.before.isBlank, hmark [','] (by decide)⟩,
        List.forall_mem_singleton.mpr
          ⟨hwell.after.isBlank, hwell.name.isNameChar.1, hwell.name.noBlank⟩⟩
    exact hboth token hmem
  · cases hplaced : spelled.placed with
    | none => exact List.forall_mem_nil _
    | some placed =>
        have hwell := h.placed placed hplaced
        obtain ⟨c, rest, hcons, -⟩ := hwell.exists_cons
        exact List.forall_mem_cons.mpr ⟨⟨hwell.before.1.isBlank, hmark ['A', 'T'] (by decide)⟩,
          List.forall_mem_singleton.mpr ⟨hwell.after.1.isBlank, by simp [hcons], hwell.noBlank⟩⟩
  · cases hinitial : spelled.initial with
    | none => exact List.forall_mem_nil _
    | some initial =>
        have hwell := h.initial initial hinitial
        obtain ⟨text, hdefault⟩ := htoken initial hinitial
        have hadmitted := hwell.default
        rw [hdefault] at hadmitted
        refine List.forall_mem_cons.mpr ⟨⟨hwell.before.isBlank, hmark [':', '='] (by decide)⟩,
          List.forall_mem_singleton.mpr ⟨hwell.after.isBlank, ?_⟩⟩
        rw [hdefault]
        exact ⟨hadmitted.1, hadmitted.2.1⟩

theorem IsSpread.joined (h : spelled.IsSpread vendor) : spelled.joined.IsWellFormed vendor := by
  refine h.wellFormed.mapGaps fun gap hgap =>
    ⟨isGap_joinGap (isBlank_of_map_soft hgap.isBlank), fun hne => ?_⟩
  rwa [Ne, joinGap_eq_nil_iff, ← map_soft_eq_nil_iff]

theorem IsSpread.isColonFree (h : spelled.IsSpread vendor) (f : List Char → List Char) :
    ∀ initial ∈ (spelled.mapGaps f).initial, initial.default.IsColonFree := by
  intro initial hmem
  obtain ⟨other, hother, rfl⟩ := Option.map_eq_some_iff.mp hmem
  exact h.initial other hother

theorem IsSpread.token_flat (h : spelled.IsSpread vendor) :
    ∀ initial ∈ spelled.flat.initial, ∃ text, initial.default = .token text :=
  fun initial hmem => (h.isColonFree _ initial hmem).exists_token.imp fun _ => And.left

/-- The tokens are as well formed as the declaration. -/
theorem IsSpread.tokens (h : spelled.IsSpread vendor) :
    ∀ token ∈ spelled.tokens, token.IsWellFormed := by
  intro token hmem
  have hflat : token.mapGap (List.map soft) ∈ spelled.flat.tokens := by
    rw [flat, tokens_mapGaps]
    exact List.mem_map_of_mem hmem
  have hwell := isWellFormed_of_mem_tokens h.wellFormed h.token_flat _ hflat
  exact ⟨isBlank_of_map_soft hwell.gap, hwell.text⟩

/-- With blanks for line breaks, the code is plain. -/
theorem IsSpread.isPlain (h : spelled.IsSpread vendor) : IsPlain vendor.commentRules
    ((spelled.indent ++ (spelled.first.toList ++
      (Token.spell spelled.tokens ++ spelled.beforeSemicolon))).map soft) := by
  have htokens : ∀ tokens : List Token, (∀ token ∈ tokens, token.IsWellFormed) →
      (Token.spell tokens).map soft = Token.spell (tokens.map (Token.mapGap (List.map soft))) := by
    intro tokens htokens
    rw [Token.spell, Token.spell, List.map_flatMap, List.flatMap_map]
    refine List.flatMap_congr fun token hmem => ?_
    rw [List.map_append, map_soft_of_notMem (htokens token hmem).noLine]
    rfl
  have hindent : '\n' ∉ spelled.indent := h.wellFormed.indent.notMem (by decide)
  have hfirst : '\n' ∉ spelled.first.toList :=
    fun hmem => ne_of_isNameChar (h.wellFormed.first.isNameChar.2 _ hmem) (by decide) rfl
  have hcode : (spelled.indent ++ (spelled.first.toList ++
      (Token.spell spelled.tokens ++ spelled.beforeSemicolon))).map soft = spelled.flat.code := by
    rw [code, ← spell_tokens, flat, tokens_mapGaps, ← htokens _ h.tokens]
    simp [mapGaps, map_soft_of_notMem hindent, map_soft_of_notMem hfirst]
  rw [hcode]
  exact isPlain_code h.wellFormed h.token_flat

/-! ## Declarations that break off -/

/-- What follows a line break is not taken for a part of the declaration, because this could be
complete without it. -/
def BreaksOff (spelled : Spelled) : Prop :=
  '\n' ∈ spelled.beforeSemicolon ∨ ('\n' ∈ spelled.beforeColon ∧
    ∃ placed ∈ spelled.placed, Statement.HasInnerColon placed.address.toList)

instance (spelled : Spelled) : Decidable spelled.BreaksOff :=
  inferInstanceAs (Decidable (_ ∨ (_ ∧ _)))

/-! ### Declarations that go on -/

/-- What the names do not hold. -/
theorem notMem_namesText (h : spelled.IsWellFormed vendor) {c : Char} (hgap : isGap c = false)
    (hname : isNameChar c = false) (hcomma : c ≠ ',') : c ∉ spelled.namesText := by
  have hnot : ∀ name : String, IsName name → c ∉ name.toList :=
    fun name hwell hmem => ne_of_isNameChar (hwell.isNameChar.2 c hmem) hname rfl
  rw [namesText, List.mem_append, not_or]
  refine ⟨hnot _ h.first, fun hmem => ?_⟩
  obtain ⟨next, hnext, hmem⟩ := List.mem_flatMap.mp hmem
  have hwell := h.others next hnext
  rw [NextName.text, List.mem_append, List.mem_cons, List.mem_append] at hmem
  obtain hmem | rfl | hmem | hmem := hmem
  · exact hwell.before.notMem hgap hmem
  · exact hcomma rfl
  · exact hwell.after.notMem hgap hmem
  · exact hnot _ hwell.name hmem

/-- There is no equals sign up to the colon. -/
theorem notMem_front (h : spelled.IsWellFormed vendor) : '=' ∉ spelled.front := by
  rw [front_eq, List.mem_append, not_or]
  refine ⟨notMem_namesText h (by decide) (by decide) (by decide), ?_⟩
  cases hplaced : spelled.placed with
  | none => exact List.not_mem_nil
  | some placed =>
      have hwell := h.placed placed hplaced
      obtain ⟨element, helement⟩ := hwell.accepted
      have haddress : '=' ∉ placed.address.toList := fun hmem =>
        notMem_address helement hwell.noBlank (by decide +kernel) (by decide)
          (List.mem_map.mpr ⟨'=', hmem, rfl⟩)
      have hbefore := hwell.before.1.notMem (by decide : isGap '=' = false)
      have hafter := hwell.after.1.notMem (by decide : isGap '=' = false)
      simp [Placed.text, haddress, hbefore, hafter]

theorem head?_front (h : spelled.IsWellFormed vendor) (rest : List Char) :
    (spelled.front ++ rest).head? ≠ some ':' := by
  obtain ⟨c, name, hcons, -, hc⟩ := h.first.exists_cons
  rw [front, hcons]
  simpa using hc

/-- A colon in front of the one that is meant stands in the address. -/
theorem hasInnerColon_front (h : spelled.IsWellFormed vendor) :
    Statement.HasInnerColon spelled.front ↔
      ∃ placed ∈ spelled.placed, Statement.HasInnerColon placed.address.toList := by
  have hnames : ':' ∉ spelled.namesText :=
    notMem_namesText h (by decide) (by decide) (by decide)
  rw [front_eq]
  cases hplaced : spelled.placed with
  | none =>
      refine ⟨fun hinner => absurd (by simpa using hinner.1) hnames, ?_⟩
      rintro ⟨placed, ⟨⟩, -⟩
  | some placed =>
      have hwell := h.placed placed hplaced
      obtain ⟨c, rest, hcons, -⟩ := hwell.exists_cons
      have hne : placed.address.toList ≠ [] := by simp [hcons]
      have hbefore := hwell.before.1.notMem (by decide : isGap ':' = false)
      have hafter := hwell.after.1.notMem (by decide : isGap ':' = false)
      have hlast : (spelled.namesText ++ placed.text).getLast? =
          placed.address.toList.getLast? := by
        rw [Placed.text, ← List.append_assoc, ← List.append_assoc, ← List.append_assoc,
          List.getLast?_append, List.getLast?_eq_some_getLast hne, Option.some_or]
      have hmem : ':' ∈ spelled.namesText ++ placed.text ↔ ':' ∈ placed.address.toList := by
        simp [Placed.text, hnames, hbefore, hafter]
      rw [Option.map_some, Option.getD_some, Statement.HasInnerColon, hmem, hlast]
      simp [Statement.HasInnerColon]

/-- No colon stands in the tokens of the names. -/
theorem notMem_tokens (h : spelled.IsSpread vendor) :
    ∀ token ∈ spelled.others.flatMap NextName.tokens, token.IsWellFormed ∧ ':' ∉ token.text := by
  intro token hmem
  refine ⟨h.tokens token (List.mem_append_left _ (List.mem_append_left _ hmem)), ?_⟩
  obtain ⟨next, hnext, hmem⟩ := List.mem_flatMap.mp hmem
  have hname : IsName next.name :=
    (h.wellFormed.others (next.mapGaps (List.map soft)) (List.mem_map_of_mem hnext)).name
  rcases List.mem_pair.mp hmem with rfl | rfl
  · exact (by decide : ':' ∉ [','])
  · exact hname.noColon

/-- **Up to the colon, nothing breaks off.** -/
theorem allGoOn_front (h : spelled.IsSpread vendor) :
    Reader.AllGoOn spelled.first.toList spelled.frontTokens := by
  obtain ⟨hnames, hnot⟩ := Reader.allGoOn_of_notMem h.wellFormed.first.noColon (notMem_tokens h)
  rw [frontTokens, Reader.allGoOn_append]
  refine ⟨hnames, ?_⟩
  cases hplaced : spelled.placed with
  | none => trivial
  | some placed =>
      have hwell := h.tokens ⟨placed.before, ['A', 'T']⟩
        (by simp [tokens, frontTokens, hplaced, Placed.tokens])
      have hgap := (isGap_joinGap hwell.gap).notMem (by decide : isGap ':' = false)
      refine ⟨fun _ => Reader.goesOn_of_notMem hnot _,
        fun _ => Reader.goesOn_of_notMem ?_ _, trivial⟩
      rw [List.mem_append, not_or]
      exact ⟨hnot, by simp [hgap]⟩

theorem front_joined (spelled : Spelled) : spelled.joined.front =
    spelled.first.toList ++ Token.spell (spelled.frontTokens.map (Token.mapGap joinGap)) := by
  rw [front, joined, frontTokens_mapGaps]
  rfl

/-- An address is not changed by other blanks. -/
theorem exists_placed_mapGaps {p : String → Prop} :
    (∃ placed ∈ (spelled.mapGaps f).placed, p placed.address) ↔
      ∃ placed ∈ spelled.placed, p placed.address := by
  cases hplaced : spelled.placed <;> simp [mapGaps, Placed.mapGaps, hplaced]

/-- **A declaration goes on** with all its tokens, unless it breaks off in front of the colon. -/
theorem allGoOn_tokens (h : spelled.IsSpread vendor)
    (hnot : ¬ ('\n' ∈ spelled.beforeColon ∧
      ∃ placed ∈ spelled.placed, Statement.HasInnerColon placed.address.toList)) :
    Reader.AllGoOn spelled.first.toList spelled.tokens := by
  have hequals := notMem_front h.joined
  have hgap : '=' ∉ joinGap spelled.beforeColon := h.joined.beforeColon.notMem (by decide)
  rw [tokens, Reader.allGoOn_append, ← front_joined]
  refine ⟨allGoOn_front h, fun hline => ?_, fun _ => ?_, ?_⟩
  · refine Reader.goesOn_of_not_hasInnerColon hequals ?_ ?_ _
    · rw [← List.append_nil spelled.joined.front]
      exact head?_front h.joined []
    · rw [hasInnerColon_front h.joined, joined, @exists_placed_mapGaps _ _ fun address =>
        Statement.HasInnerColon address.toList]
      exact fun hinner => hnot ⟨hline, hinner⟩
  · -- Behind the colon nothing stands.
    refine Reader.goesOn_of_not_hasInnerColon (by simp [hequals, hgap])
      (head?_front h.joined _) ?_ _
    exact fun hinner => hinner.2 (by simp)
  · cases hinitial : spelled.initial with
    | none => trivial
    | some initial =>
        refine ⟨fun _ _ => .inl rfl, fun _ => ?_, trivial⟩
        rw [← List.append_assoc]
        exact Reader.goesOn_of_sign _ _

/-! ### Declarations that do not -/

/-- Behind an address with a colon, the colon that is meant comes unexpected. -/
theorem not_goesOn_front (h : spelled.IsWellFormed vendor)
    (hinner : ∃ placed ∈ spelled.placed, Statement.HasInnerColon placed.address.toList)
    {rest : List Char} (hrest : rest.head? ≠ some '=') :
    ¬ Reader.GoesOn spelled.front (':' :: rest) := by
  have hfirst := head?_front h []
  rw [List.append_nil] at hfirst
  have hread := (Statement.isSome_read?_iff (notMem_front h) hfirst).mpr
    ((hasInnerColon_front h).mpr hinner)
  intro hgo
  rcases hgo hread with hbegins | hends
  · obtain ⟨tail, heq⟩ := List.isPrefixOf_iff_prefix.mp hbegins
    exact hrest (by rw [← (List.cons.inj heq).2]; rfl)
  · exact Reader.not_endsWithSign (notMem_front h) hends

/-- In front of a default stands the equals sign, or a blank. -/
theorem exists_statement_of_initial {initial : Initial} (h : initial.IsWellFormed vendor)
    (hinitial : spelled.initial = some initial) :
    ∃ before c, spelled.statement = before ++ c :: initial.default.written ∧ c ≠ ':' := by
  obtain ⟨front, hstatement⟩ : ∃ front, spelled.statement =
      front ++ '=' :: (initial.after ++ initial.default.written) := by
    refine ⟨spelled.front ++ (spelled.beforeColon ++ ':' :: (spelled.afterColon ++
      (spelled.typeName.toList ++ (initial.before ++ [':'])))), ?_⟩
    simp [statement_eq, typeText, initialText, hinitial, Initial.text]
  rcases List.eq_nil_or_concat initial.after with hafter | ⟨gap, c, hafter⟩
  · exact ⟨front, '=', by rw [hstatement, hafter, List.nil_append], by decide⟩
  · have hc : isGap c = true := h.after c (by simp [hafter])
    refine ⟨front ++ '=' :: gap, c, by simp [hstatement, hafter], ?_⟩
    rintro rfl
    cases hc

/-- A whole declaration does not end with the sign of a default, unless its default does. -/
theorem statement_not_endsWithSign (h : spelled.IsWellFormed vendor)
    (hnot : ∀ initial ∈ spelled.initial, ¬ initial.default.EndsWithSign) :
    ¬ ['=', ':'].isPrefixOf (Text.trimEnd spelled.statement).reverse = true := by
  cases hinitial : spelled.initial with
  | none =>
      refine Reader.not_endsWithSign ?_
      have hname := isName_typeName h.typeName
      have htype : '=' ∉ spelled.typeName.toList := fun hmem =>
        ne_of_isNameChar (hname.isNameChar.2 _ hmem) (by decide) rfl
      have hbefore := h.beforeColon.notMem (by decide : isGap '=' = false)
      have hafter := h.afterColon.notMem (by decide : isGap '=' = false)
      rw [statement_eq, typeText, initialText, hinitial]
      simp [notMem_front h, hbefore, hafter, htype]
  | some initial =>
      have hwell := h.initial initial hinitial
      have hends := hnot initial hinitial
      have htrim : Text.trimEnd spelled.statement = spelled.statement := by
        rw [← trim_statement h, Text.trim, Text.trimEnd_trimEnd]
      obtain ⟨before, c, hstatement, hc⟩ := exists_statement_of_initial hwell hinitial
      rw [htrim, hstatement, List.reverse_append, List.reverse_cons, List.append_assoc]
      cases hdefault : initial.default with
      | token text =>
          rw [hdefault] at hends
          -- The sign would be the end of the token, or begin in front of it.
          rcases hwritten : text.toList.reverse with - | ⟨d, - | ⟨e, rest⟩⟩
          · have hadmitted := hwell.default
            rw [hdefault] at hadmitted
            exact absurd (List.reverse_eq_nil_iff.mp hwritten) hadmitted.1
          · simp [Default.written, hwritten, List.isPrefixOf, hc.symm]
          · simp only [Default.written, hwritten, List.cons_append, List.isPrefixOf,
              Bool.and_true, Bool.and_eq_true, beq_iff_eq, not_and]
            rintro rfl rfl
            refine hends ⟨rest.reverse, ?_⟩
            rw [← List.reverse_reverse text.toList, hwritten, List.reverse_cons, List.reverse_cons,
              List.append_assoc]
            rfl
      | literal body => simp [Default.written, List.isPrefixOf]

theorem isSome_read?_statement (h : spelled.IsWellFormed vendor) :
    (Statement.read? spelled.statement).isSome = true := by
  obtain ⟨typeName, htype, -⟩ := typeAndDefault?_typeText h
  rw [statement_eq, ← List.append_assoc]
  refine Statement.isSome_read?_colon ?_ (by rw [htype]; rfl)
  simp [front, h.first.isNameChar.1]

/-- Behind a whole declaration, the semicolon comes too late. -/
theorem not_goesOn_statement (h : spelled.IsWellFormed vendor)
    (hfree : ∀ initial ∈ spelled.initial, initial.default.IsColonFree)
    (rest : List Char) : ¬ Reader.GoesOn spelled.statement (';' :: rest) := by
  intro hgo
  rcases hgo (isSome_read?_statement h) with hbegins | hends
  · cases hbegins
  · exact statement_not_endsWithSign h
      (fun initial hinitial => (hfree initial hinitial).not_endsWithSign) hends

end Spelled

/-! ## The lines of a declaration -/

namespace Noted

structure IsSpread (vendor : Vendor) (noted : Noted) : Prop where
  spelled : noted.spelled.IsSpread vendor
  comment : ∀ text ∈ noted.comment, '\n' ∉ text

instance (vendor : Vendor) (noted : Noted) : Decidable (noted.IsSpread vendor) :=
  decidable_of_iff
    (noted.spelled.IsSpread vendor ∧ ∀ text ∈ noted.comment, '\n' ∉ text)
    ⟨fun ⟨hspelled, hcomment⟩ => ⟨hspelled, hcomment⟩, fun h => ⟨h.spelled, h.comment⟩⟩

/-- The declaration as it reaches the reader. -/
def joined (noted : Noted) : Noted :=
  { noted with spelled := noted.spelled.joined }

/-- How many lines a declaration takes. -/
def height (noted : Noted) : Nat :=
  noted.text.count '\n' + 1

theorem height_pos (noted : Noted) : 0 < noted.height :=
  Nat.succ_pos _

theorem IsSpread.joined {noted : Noted} (h : noted.IsSpread vendor) :
    noted.joined.IsWellFormed vendor :=
  ⟨h.spelled.joined, h.comment⟩

theorem IsSpread.noColon {noted : Noted} (h : noted.IsSpread vendor) :
    ∀ initial ∈ noted.joined.spelled.initial, ':' ∉ initial.default.written := by
  intro initial hmem
  obtain ⟨text, hdefault, hcolon⟩ := (h.spelled.isColonFree joinGap initial hmem).exists_token
  rwa [hdefault]

theorem text_append (noted : Noted) (rest : List Char) :
    noted.text ++ rest = noted.spelled.indent ++ (noted.spelled.first.toList ++
      (Token.spell noted.spelled.tokens ++ (noted.spelled.beforeSemicolon ++ ';' ::
        (noted.spelled.afterSemicolon ++ (Spelled.commentText noted.comment ++ rest))))) := by
  rw [text, Spelled.line, ← Spelled.spell_tokens]
  simp

theorem height_eq {noted : Noted} (h : noted.IsSpread vendor)
    (hsemicolon : '\n' ∉ noted.spelled.beforeSemicolon) :
    noted.height = (Token.spell noted.spelled.tokens).count '\n' + 1 := by
  have hindent : '\n' ∉ noted.spelled.indent := h.spelled.wellFormed.indent.notMem (by decide)
  have hfirst : '\n' ∉ noted.spelled.first.toList :=
    fun hmem => ne_of_isNameChar (h.spelled.wellFormed.first.isNameChar.2 _ hmem) (by decide) rfl
  have hafter : '\n' ∉ noted.spelled.afterSemicolon :=
    h.spelled.wellFormed.afterSemicolon.notMem (by decide)
  have hcomment : '\n' ∉ Spelled.commentText noted.comment := by
    cases hnoted : noted.comment with
    | none => exact List.not_mem_nil
    | some text => simp [Spelled.commentText, h.comment text hnoted]
  have htext := noted.text_append []
  rw [List.append_nil] at htext
  rw [height, htext]
  simp [List.count_eq_zero.mpr, hindent, hfirst, hsemicolon, hafter, hcomment]

end Noted

namespace Reader

variable {noted : Noted} {reader : Reader} {block : Block}

/-- In front of the tokens, where only the first name has been passed. -/
def startPlace (reader : Reader) (number : Nat) (spelled : Spelled) : Place :=
  ⟨number, spelled.indent, spelled.first.toList, reader.pendingLine, []⟩

theorem isReached_startPlace {spelled : Spelled} (h : spelled.IsSpread vendor) (number : Nat) :
    (reader.startPlace number spelled).IsReached number := by
  have hfirst : IsName spelled.first := h.wellFormed.first
  refine ⟨h.wellFormed.indent, Text.trim_of_forall_not_blank hfirst.noBlank, ?_, ?_, ?_, rfl⟩
  · obtain ⟨c, rest, hcons, hc, -⟩ := hfirst.exists_cons
    rw [startPlace, hcons, Text.allBlank, List.all_cons, hc, Bool.false_and]
  · exact fun hmem => ne_of_isNameChar (hfirst.isNameChar.2 _ hmem) (by decide) rfl
  · exact goesOn_of_notMem List.not_mem_nil _

/-- **Up to some token** the declaration goes on, from line to line. -/
theorem exists_place_of_tokens (h : noted.spelled.IsSpread vendor) (hsettled : reader.IsSettled)
    (hblock : reader.block = some block) {front back : List Token}
    (htokens : noted.spelled.tokens = front ++ back)
    (hgo : AllGoOn noted.spelled.first.toList front) (number : Nat) :
    ∃ next : Place, next.IsReached number ∧
      next.text = noted.spelled.first.toList ++
        Token.spell (front.map (Token.mapGap joinGap)) ∧
      next.Admits vendor (Token.spell back ++ noted.spelled.beforeSemicolon) ∧
      next.number = number + (Token.spell front).count '\n' ∧
      ∀ rest, (linesFrom vendor.commentRules .code (.start number) (noted.spelled.indent ++
          (noted.spelled.first.toList ++ (Token.spell front ++ rest)))).foldl
            (readLine vendor.commentRules) reader =
        (next.lines vendor rest).foldl (readLine vendor.commentRules) (next.before reader) := by
  have hplain := h.isPlain
  have hwell := h.tokens
  rw [htokens, Token.spell_append, List.append_assoc] at hplain
  rw [htokens] at hwell
  obtain ⟨next, hnext, htext, hadmits, hleads⟩ :=
    (isReached_startPlace h number).exists_place hsettled hblock
      (List.forall_mem_append.mp hwell).1 hgo hplain
  have hbegin : (reader.startPlace number noted.spelled).before reader = reader :=
    hsettled.midway_nil
  have hlines := hleads.lines
  rw [hbegin] at hlines
  exact ⟨next, hnext, htext, hadmits, hleads.number, hlines⟩

/-- Behind all tokens the statement is the declaration as it reaches the reader. -/
theorem spell_joined (spelled : Spelled) : spelled.first.toList ++
    Token.spell (spelled.tokens.map (Token.mapGap joinGap)) = spelled.joined.statement := by
  rw [← Spelled.spell_tokens, Spelled.joined, Spelled.tokens_mapGaps]
  rfl

/-- **A declaration on several lines** is read as one on a single line, unless it breaks off. -/
theorem readsAs_spread (h : noted.IsSpread vendor) (hnot : ¬ noted.spelled.BreaksOff) :
    ReadsAs vendor noted.text noted.height noted.joined := by
  intro before block hsettled hblock number rest
  obtain ⟨hsemicolon, hcolon⟩ := not_or.mp hnot
  have hgap : IsGap noted.spelled.beforeSemicolon :=
    isGap_of_notMem (isBlank_of_map_soft h.spelled.wellFormed.beforeSemicolon.isBlank) hsemicolon
  have hafter : IsGap noted.spelled.afterSemicolon := h.spelled.wellFormed.afterSemicolon
  obtain ⟨next, hnext, htext, hadmits, hnumber, hlines⟩ :=
    exists_place_of_tokens h.spelled hsettled hblock (List.append_nil _).symm
      (Spelled.allGoOn_tokens h.spelled hcolon) number
  rw [spell_joined] at htext
  have hplain : IsPlain vendor.commentRules
      (next.indent ++ (next.passed ++ noted.spelled.beforeSemicolon)) := by
    have hline : '\n' ∉ next.indent ++ (next.passed ++ noted.spelled.beforeSemicolon) := by
      simp [hnext.indent.notMem (by decide : isGap '\n' = false), hnext.noLine, hsemicolon]
    have hnil : Token.spell [] ++ noted.spelled.beforeSemicolon = noted.spelled.beforeSemicolon :=
      rfl
    rwa [Place.Admits, hnil, map_soft_of_notMem hline] at hadmits
  have htrim : Text.trim next.text = next.text := by
    rw [htext, Spelled.trim_statement h.spelled.joined]
  have hlast : next.indent ++ (next.passed ++ (noted.spelled.beforeSemicolon ++ ';' ::
      (noted.spelled.afterSemicolon ++ (Spelled.commentText noted.comment ++ '\n' :: rest)))) =
      (next.indent ++ (next.passed ++ noted.spelled.beforeSemicolon) ++
        ';' :: noted.spelled.afterSemicolon) ++
          (Spelled.commentText noted.comment ++ '\n' :: rest) := by
    simp
  rw [Noted.text_append, hlines, Place.lines, hlast,
    Spelled.linesFrom_commented hplain.passes hafter _ h.comment, List.foldl_cons,
    hnext.readLine_semicolon hsettled hblock hgap hplain hafter htrim, hnumber, htext,
    add_eq_addRead, Noted.height_eq h hsemicolon]
  rfl

/-- Wherever it stands, a text leaves a problem. -/
def Spoils (vendor : Vendor) (text : List Char) : Prop :=
  ∀ {before : Reader} {block : Block}, before.IsSettled → before.block = some block →
    ∀ (number : Nat) (rest : List Char),
      ((linesFrom vendor.commentRules .code (.start number) (text ++ '\n' :: rest)).foldl
        (readLine vendor.commentRules) before).diagnostics ≠ []

/-- What stands behind the colon does not begin like a comment or the sign of a default. -/
theorem head?_typeText {spelled : Spelled} (h : spelled.IsSpread vendor) (rest : List Char) :
    (spelled.afterColon ++ (spelled.typeName.toList ++ rest)).head? ≠ some '/' ∧
      (spelled.afterColon ++ (spelled.typeName.toList ++ rest)).head? ≠ some '=' := by
  have hblank := isBlank_of_map_soft h.wellFormed.afterColon.isBlank
  have hname : IsName spelled.typeName := isName_typeName h.wellFormed.typeName
  have hfirst : ∀ c ∈ (spelled.afterColon ++ (spelled.typeName.toList ++ rest)).head?,
      Text.isBlank c = true ∨ isNameChar c = true := by
    cases hafter : spelled.afterColon with
    | nil =>
        obtain ⟨c, tail, hcons, -⟩ := hname.exists_cons
        rw [hcons]
        rintro d ⟨⟩
        exact .inr (hname.isNameChar.2 c (hcons ▸ List.mem_cons_self))
    | cons c gap =>
        rintro d ⟨⟩
        exact .inl (hblank c (hafter ▸ List.mem_cons_self))
  constructor <;> intro heq <;> have hmark := hfirst _ heq <;> revert hmark <;> decide

/-- **A declaration that breaks off leaves a problem.** -/
theorem spoils_of_breaksOff (h : noted.IsSpread vendor) (hbreaks : noted.spelled.BreaksOff) :
    Spoils vendor noted.text := by
  intro before block hsettled hblock number rest
  have hjoined := h.spelled.joined
  -- The declaration breaks off in front of its colon, or in front of its semicolon.
  by_cases hcolon : '\n' ∈ noted.spelled.beforeColon ∧
      ∃ placed ∈ noted.spelled.placed, Statement.HasInnerColon placed.address.toList
  · obtain ⟨hline, hinner⟩ := hcolon
    have hgap := isBlank_of_map_soft h.spelled.wellFormed.beforeColon.isBlank
    obtain ⟨next, hnext, htext, hadmits, -, hlines⟩ :=
      exists_place_of_tokens h.spelled hsettled hblock rfl (Spelled.allGoOn_front h.spelled) number
    rw [← Spelled.front_joined] at htext
    rw [Spelled.typeTokens, Token.spell_cons] at hadmits
    have hplain := (hnext.isPlain hgap (List.ne_nil_of_mem hline) hadmits).1
    have hrest : ∀ rest, Token.spell noted.spelled.tokens ++ rest =
        Token.spell noted.spelled.frontTokens ++ (noted.spelled.beforeColon ++ ':' ::
          (noted.spelled.afterColon ++ (noted.spelled.typeName.toList ++
            (Token.spell ((noted.spelled.initial.map Initial.tokens).getD []) ++ rest)))) := by
      simp [Spelled.tokens, Spelled.typeTokens, Token.spell]
    obtain ⟨hslash, hequals⟩ := head?_typeText h.spelled
      (Token.spell ((noted.spelled.initial.map Initial.tokens).getD []) ++
        (noted.spelled.beforeSemicolon ++ ';' :: (noted.spelled.afterSemicolon ++
          (Spelled.commentText noted.comment ++ '\n' :: rest))))
    rw [Noted.text_append, hrest, hlines]
    refine hnext.diagnostics_of_break hsettled hblock hplain hgap hline (.inr ⟨rfl, hslash⟩) ?_
    rw [htext]
    refine Spelled.not_goesOn_front hjoined ?_ hequals
    exact (@Spelled.exists_placed_mapGaps _ _ fun address =>
      Statement.HasInnerColon address.toList).mpr hinner
  · have hline := hbreaks.resolve_right hcolon
    have hgap := isBlank_of_map_soft h.spelled.wellFormed.beforeSemicolon.isBlank
    obtain ⟨next, hnext, htext, hadmits, -, hlines⟩ :=
      exists_place_of_tokens h.spelled hsettled hblock (List.append_nil _).symm
        (Spelled.allGoOn_tokens h.spelled hcolon) number
    rw [spell_joined] at htext
    have hnil : Token.spell [] ++ noted.spelled.beforeSemicolon =
        noted.spelled.beforeSemicolon ++ [] := (List.append_nil _).symm
    rw [hnil] at hadmits
    have hplain := (hnext.isPlain hgap (List.ne_nil_of_mem hline) hadmits).1
    rw [Noted.text_append, hlines]
    refine hnext.diagnostics_of_break hsettled hblock hplain hgap hline (.inl rfl) ?_
    rw [htext]
    exact Spelled.not_goesOn_statement hjoined (h.spelled.isColonFree joinGap) _

/-! ## Sources -/

variable {before : Reader}

/-- A declaration that breaks off is not made up for in the other lines of its block. -/
theorem spoiled_lines {lines : List Noted} (h : before.IsSettled)
    (hblock : before.block = some block) (hlines : ∀ noted ∈ lines, noted.IsSpread vendor)
    (hbreaks : ∃ noted ∈ lines, noted.spelled.BreaksOff) (number : Nat) (rest : List Char) :
    ((linesFrom vendor.commentRules .code (.start number)
      (lines.flatMap (fun noted => noted.text ++ ['\n']) ++ rest)).foldl
        (readLine vendor.commentRules) before).diagnostics ≠ [] := by
  induction lines generalizing before number with
  | nil =>
      obtain ⟨noted, hmem, -⟩ := hbreaks
      cases hmem
  | cons noted lines ih =>
      obtain ⟨hnoted, hlines⟩ := List.forall_mem_cons.mp hlines
      have hsplit : (noted :: lines).flatMap (fun noted => noted.text ++ ['\n']) ++ rest =
          noted.text ++ '\n' :: (lines.flatMap (fun noted => noted.text ++ ['\n']) ++ rest) := by
        simp
      rw [hsplit]
      by_cases hthis : noted.spelled.BreaksOff
      · exact spoils_of_breaksOff hnoted hthis h hblock number _
      · have hlater : ∃ noted ∈ lines, noted.spelled.BreaksOff :=
          (List.or_exists_of_exists_mem_cons hbreaks).resolve_left hthis
        rw [readsAs_spread hnoted hthis h hblock number]
        exact ih (h.add vendor _) hblock hlines hlater _

/-- Nor is it in the other blocks. -/
theorem spoiled_sections {parts : List (Section Noted)} (h : before.IsSettled)
    (hblock : before.block = none)
    (hparts : ∀ part ∈ parts, ∀ noted ∈ part.lines, noted.IsSpread vendor)
    (hbreaks : ∃ part ∈ parts, ∃ noted ∈ part.lines, noted.spelled.BreaksOff) (number : Nat) :
    ((linesFrom vendor.commentRules .code (.start number) (sourceText Noted.text parts)).foldl
      (readLine vendor.commentRules) before).diagnostics ≠ [] := by
  induction parts generalizing before number with
  | nil =>
      obtain ⟨part, hmem, -⟩ := hbreaks
      cases hmem
  | cons part parts ih =>
      obtain ⟨hpart, hparts⟩ := List.forall_mem_cons.mp hparts
      have hsplit : sourceText Noted.text (part :: parts) =
          part.text Noted.text ++ sourceText Noted.text parts := List.flatMap_cons
      rw [hsplit]
      by_cases hthis : ∃ noted ∈ part.lines, noted.spelled.BreaksOff
      · rw [part.text_append, linesFrom_words (words_header _), List.foldl_cons,
          h.readLine_header hblock]
        exact spoiled_lines (h.opened part.block) rfl hpart hthis (number + 1) _
      · have hreads : ∀ noted ∈ part.lines,
            ReadsAs vendor noted.text noted.height noted.joined := fun noted hmem =>
          readsAs_spread (hpart noted hmem) fun hnoted => hthis ⟨noted, hmem, hnoted⟩
        have hlater := (List.or_exists_of_exists_mem_cons hbreaks).resolve_left hthis
        obtain ⟨middle, hfirst, -, hlines⟩ := Script.reads_section h hblock
          (Script.readsAll_meaning hreads) number (sourceText Noted.text parts)
        dsimp only [Script.meaning] at hlines
        rw [hlines]
        exact ih hfirst.settled (hfirst.block.trans hblock) hparts hlater _

/-- At the end of the text no problem is forgotten. -/
theorem diagnostics_finish_ne_nil {rules : CommentRules} (h : reader.diagnostics ≠ [])
    (lastLine : Nat) (isBlank : Bool) :
    (reader.finish rules lastLine isBlank).diagnostics ≠ [] := by
  unfold finish
  split
  · exact List.append_ne_nil_of_right_ne_nil _ (List.cons_ne_nil _ _)
  · split
    · exact h
    · exact List.append_ne_nil_of_right_ne_nil _ (List.cons_ne_nil _ _)

end Reader

/-- Whether the last line ends with a line break makes no difference to what is reported. -/
theorem diagnostics_foldl_lines {source : String} {text : List Char} {before : Reader}
    (hsource : IsSource source text) :
    ((lines vendor.commentRules source).foldl (Reader.readLine vendor.commentRules)
        before).diagnostics =
      ((linesFrom vendor.commentRules .code (.start 1) text).foldl
        (Reader.readLine vendor.commentRules) before).diagnostics := by
  rcases hsource with rfl | rfl
  · rfl
  · obtain ⟨number, heq⟩ :=
      exists_linesFrom_append_newline vendor .code (.start 1) source.toList
    rw [heq, List.foldl_append]
    exact (Reader.readLine_empty vendor number _).2.1.symm

/-- **What is meant is found** in declarations as they reach the reader, and nothing is reported,
exactly if none of them strays. -/
theorem flatMap_entries_joined_iff {founds : List (Numbered Noted)}
    (hsorted : founds.Pairwise fun first later => first.number < later.number)
    (h : ∀ found ∈ founds, found.line.IsSpread vendor) :
    ((founds.map (Numbered.map Noted.joined)).flatMap (Numbered.entries vendor) =
          (founds.flatMap Numbered.declarations).map .declared ∧
        (founds.map (Numbered.map Noted.joined)).flatMap (Numbered.problems vendor) = []) ↔
      ∀ found ∈ founds, ¬ found.line.spelled.Strays := by
  have hmeant : (founds.map (Numbered.map Noted.joined)).flatMap Numbered.declarations =
      founds.flatMap Numbered.declarations := by
    rw [List.flatMap_map]
    exact List.flatMap_congr fun found _ => Spelled.declarations_mapGaps joinGap _ _ _ _
  have hlines := flatMap_entries_iff_not_strays
    (List.pairwise_map.mpr hsorted : (founds.map (Numbered.map Noted.joined)).Pairwise
      fun first later => first.number < later.number)
    (List.forall_mem_map.mpr fun found hfound => (h found hfound).joined)
    (List.forall_mem_map.mpr fun found hfound => (h found hfound).noColon)
  rw [hmeant, List.forall_mem_map] at hlines
  exact hlines.trans (forall₂_congr fun found _ =>
    not_congr (Spelled.strays_mapGaps joinGap_eq_nil_iff))

/-- **Line breaks do not matter**: the variables of a source are those that are meant, however
their declarations are broken into lines between their tokens, exactly if none of them strays or
breaks off. -/
theorem extract_spread_iff {parts : List (Section Noted)} {source : String}
    (h : ∀ part ∈ parts, ∀ noted ∈ part.lines, noted.IsSpread vendor)
    (hsource : IsSource source (sourceText Noted.text parts)) :
    extract vendor source =
        ⟨vendor, ((spread Noted.height 1 parts).flatMap Numbered.declarations).map .declared, []⟩ ↔
      ∀ part ∈ parts, ∀ noted ∈ part.lines,
        ¬ noted.spelled.Strays ∧ ¬ noted.spelled.BreaksOff := by
  by_cases hbreaks : ∃ part ∈ parts, ∃ noted ∈ part.lines, noted.spelled.BreaksOff
  · have hspoiled : (extract vendor source).diagnostics ≠ [] := by
      refine Reader.diagnostics_finish_ne_nil ?_ _ _
      rw [diagnostics_foldl_lines hsource]
      exact Reader.spoiled_sections Reader.isSettled_start rfl h hbreaks 1
    obtain ⟨part, hpart, noted, hnoted, hbreaks⟩ := hbreaks
    exact ⟨fun heq => absurd (congrArg Extraction.diagnostics heq) hspoiled,
      fun hall => absurd hbreaks (hall part hpart noted hnoted).2⟩
  · have hgoesOn : ∀ part ∈ parts, ∀ noted ∈ part.lines, ¬ noted.spelled.BreaksOff :=
      fun part hpart noted hnoted hbreak => hbreaks ⟨part, hpart, noted, hnoted, hbreak⟩
    have hreads : ∀ part ∈ parts, ∀ noted ∈ part.lines,
        Reader.ReadsAs vendor noted.text noted.height noted.joined :=
      fun part hpart noted hnoted => Reader.readsAs_spread (h part hpart noted hnoted)
        (hgoesOn part hpart noted hnoted)
    -- Of lines that go on, what is read is what is meant unless one strays.
    have hlines := flatMap_entries_joined_iff (pairwise_spread Noted.height_pos 1 parts)
      (forall_spread.mpr h)
    have hstrays : (∀ found ∈ spread Noted.height 1 parts, ¬ found.line.spelled.Strays) ↔
        ∀ part ∈ parts, ∀ noted ∈ part.lines, ¬ noted.spelled.Strays :=
      @forall_spread _ _ _ _ fun noted : Noted => ¬ noted.spelled.Strays
    rw [extract_of_readsAs hreads hsource, Extraction.mk.injEq, hlines, hstrays]
    simp only [true_and]
    exact forall₂_congr fun part hpart => forall₂_congr fun noted hnoted =>
      (and_iff_left (hgoesOn part hpart noted hnoted)).symm

/-! ## Two line breaks -/

/-- Declarations with line breaks where they do no harm. -/
def spreadSections : List (Section Noted) :=
  [⟨⟨.input, false⟩,
    [⟨⟨[], "Start", [⟨[], ['\n'], "Stop"⟩], some ⟨[' '], ['\n'], "I:1/0"⟩, [' '], ['\n', ' '],
        "BOOL", some ⟨['\n'], [' '], .token "TRUE"⟩, [], []⟩, some " ready".toList⟩,
      ⟨⟨[], "Count", [], none, ['\n', '\n'], [], "INT", some ⟨[], ['\n'], .token "5"⟩, [], []⟩,
        none⟩]⟩]

def spreadSource : String :=
  "VAR_INPUT\nStart,\nStop AT\nI:1/0 :\n BOOL\n:= TRUE;// ready\nCount\n\n:INT:=\n5;\nEND_VAR"

/-- They are found as they are meant. -/
theorem extract_spreadSource :
    extract .rockwell spreadSource =
      ⟨.rockwell,
        [.declared ⟨"Start", "BOOL", "I:1/0", "TRUE", "ready", ⟨.input, false⟩, 2⟩,
          .declared ⟨"Stop", "BOOL", "I:1/0", "TRUE", "ready", ⟨.input, false⟩, 2⟩,
          .declared ⟨"Count", "INT", "", "5", "", ⟨.input, false⟩, 7⟩], []⟩ := by
  have hparts : ∀ part ∈ spreadSections, ∀ noted ∈ part.lines, noted.IsSpread .rockwell := by
    decide
  have hsource : IsSource spreadSource (sourceText Noted.text spreadSections) :=
    .inr (by decide +kernel)
  exact (extract_spread_iff hparts hsource).mpr (by decide)

/-- A declaration with this behind its address. -/
def wiredSource (gap : String) : String :=
  "VAR\nStart AT I:1/0" ++ gap ++ ": BOOL;\nEND_VAR"

/-- A line break in place of a blank makes a name and a type of the address. -/
theorem extract_wiredSource :
    extract .rockwell (wiredSource " ") =
        ⟨.rockwell, [.declared ⟨"Start", "BOOL", "I:1/0", "", "", ⟨.plain, false⟩, 2⟩], []⟩ ∧
      extract .rockwell (wiredSource "\n") =
        ⟨.rockwell,
          [.declared ⟨"Start", "1/0", "I", "", "", ⟨.plain, false⟩, 2⟩,
            .unread 3 ": BOOL" .noDeclaration],
          [{ severity := .warning, code := .partialDeclaration, line := some 2,
             message := "declaration 'Start AT I:1/0' is missing its ';'" },
           { severity := .error, code := .partialDeclaration, line := some 3,
             message := "cannot read declaration ': BOOL': expected 'name : TYPE'" }]⟩ := by
  have hwhole : (extract .rockwell (wiredSource " ")).entries =
      [.declared ⟨"Start", "BOOL", "I:1/0", "", "", ⟨.plain, false⟩, 2⟩] := by
    decide +kernel
  have hsilent : (extract .rockwell (wiredSource " ")).diagnostics = [] := by
    decide +kernel
  have hentries : (extract .rockwell (wiredSource "\n")).entries =
      [.declared ⟨"Start", "1/0", "I", "", "", ⟨.plain, false⟩, 2⟩,
        .unread 3 ": BOOL" .noDeclaration] := by
    decide +kernel
  have hdiagnostics : (extract .rockwell (wiredSource "\n")).diagnostics =
      [{ severity := .warning, code := .partialDeclaration, line := some 2,
         message := "declaration 'Start AT I:1/0' is missing its ';'" },
       { severity := .error, code := .partialDeclaration, line := some 3,
         message := "cannot read declaration ': BOOL': expected 'name : TYPE'" }] := by
    decide +kernel
  exact ⟨congr (congrArg (Extraction.mk .rockwell) hwhole) hsilent,
    congr (congrArg (Extraction.mk .rockwell) hentries) hdiagnostics⟩

end PlcTags.Source
