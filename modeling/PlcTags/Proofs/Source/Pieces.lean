import Mathlib.Data.List.Count
import PlcTags.Proofs.Source.Reading

/-!
# Statements on several lines

A statement whose tokens stand on several lines reaches the reader piece by piece.  Between two
lines the reader keeps the pieces it has seen, one blank apart, and decides with the next line
whether the statement goes on (`Reader.GoesOn`).  As long as it does, the tokens are
read as if each line break were a blank (`Reader.exists_place`); where it does not, a problem
is reported that stays (`Reader.diagnostics_of_break`).
-/

namespace PlcTags.Source

variable {vendor : Vendor}

/-! ## Line breaks -/

/-- A line break as the blank it is taken for. -/
def soft (c : Char) : Char :=
  if c = '\n' then ' ' else c

/-- Blanks as they reach a statement: those around a line break are one. -/
def joinGap (gap : List Char) : List Char :=
  if '\n' ∈ gap then [' '] else gap

theorem map_soft_of_notMem {text : List Char} (h : '\n' ∉ text) : text.map soft = text := by
  have hsoft : ∀ c ∈ text, soft c = c := by
    intro c hc
    refine if_neg ?_
    rintro rfl
    exact h hc
  rw [List.map_congr_left hsoft, List.map_id']

theorem isGap_map_soft {gap : List Char} (h : ∀ c ∈ gap, Text.isBlank c = true) :
    IsGap (gap.map soft) := by
  intro d hd
  obtain ⟨c, hc, rfl⟩ := List.mem_map.mp hd
  by_cases hline : c = '\n'
  · rw [hline]
    decide
  · rw [soft, if_neg hline, isGap, h c hc]
    simpa using hline

theorem isGap_of_notMem {gap : List Char} (h : ∀ c ∈ gap, Text.isBlank c = true)
    (hline : '\n' ∉ gap) : IsGap gap := by
  have hgap := isGap_map_soft h
  rwa [map_soft_of_notMem hline] at hgap

theorem isGap_joinGap {gap : List Char} (h : ∀ c ∈ gap, Text.isBlank c = true) :
    IsGap (joinGap gap) := by
  unfold joinGap
  split
  · exact List.forall_mem_singleton.mpr (by decide)
  · rename_i hline
    exact isGap_of_notMem h hline

theorem map_soft_eq_nil_iff (gap : List Char) : gap.map soft = [] ↔ gap = [] :=
  List.map_eq_nil_iff

theorem joinGap_eq_nil_iff (gap : List Char) : joinGap gap = [] ↔ gap = [] := by
  unfold joinGap
  split
  · rename_i hline
    exact ⟨fun h => absurd h (List.cons_ne_nil _ _), fun h => absurd hline (h ▸ List.not_mem_nil)⟩
  · rfl

/-- What has blanks only once its line breaks are blanks has blanks only. -/
theorem isBlank_of_map_soft {gap : List Char} (h : ∀ c ∈ gap.map soft, Text.isBlank c = true) :
    ∀ c ∈ gap, Text.isBlank c = true := by
  intro c hc
  have hsoft := h _ (List.mem_map_of_mem hc)
  by_cases hline : c = '\n'
  · rw [hline]
    decide
  · rwa [soft, if_neg hline] at hsoft

/-! ## Tokens -/

/-- A token with the blanks in front of it. -/
structure Token where
  gap : List Char
  text : List Char
  deriving DecidableEq, Repr

namespace Token

structure IsWellFormed (token : Token) : Prop where
  gap : ∀ c ∈ token.gap, Text.isBlank c = true
  text : token.text ≠ [] ∧ IsSolid token.text

/-- The same token behind other blanks. -/
def mapGap (f : List Char → List Char) (token : Token) : Token :=
  { token with gap := f token.gap }

/-- Some tokens as they are written. -/
def spell (tokens : List Token) : List Char :=
  tokens.flatMap fun token => token.gap ++ token.text

theorem spell_cons (token : Token) (tokens : List Token) (rest : List Char) :
    spell (token :: tokens) ++ rest = token.gap ++ (token.text ++ (spell tokens ++ rest)) := by
  simp [spell]

theorem spell_append (front back : List Token) :
    spell (front ++ back) = spell front ++ spell back :=
  List.flatMap_append

/-- No line ends in a token. -/
theorem IsWellFormed.noLine {token : Token} (h : token.IsWellFormed) : '\n' ∉ token.text := by
  intro hmem
  have hblank := h.text.2 _ hmem
  revert hblank
  decide

end Token

namespace Reader

variable {reader : Reader} {rules : CommentRules} {block : Block}

/-! ## Between two lines -/

/-- Whether a statement, if it could be complete, goes on with this text. -/
def GoesOn (pending text : List Char) : Prop :=
  (Statement.read? pending).isSome = true →
    [':', '='].isPrefixOf text = true ∨ ['=', ':'].isPrefixOf (Text.trimEnd pending).reverse = true

theorem GoesOn.append {pending text : List Char} (h : GoesOn pending text) (more : List Char) :
    GoesOn pending (text ++ more) := by
  refine fun hread => (h hread).imp_left fun hbegins => ?_
  rw [List.isPrefixOf_iff_prefix] at hbegins ⊢
  exact hbegins.trans (List.prefix_append _ _)

/-- Whether a statement goes on with each of these tokens that stands in a line of its own. -/
def AllGoOn (text : List Char) : List Token → Prop
  | [] => True
  | token :: rest =>
    ('\n' ∈ token.gap → GoesOn text token.text) ∧
      AllGoOn (text ++ (joinGap token.gap ++ token.text)) rest

theorem allGoOn_append {text : List Char} {front back : List Token} :
    AllGoOn text (front ++ back) ↔ AllGoOn text front ∧
      AllGoOn (text ++ Token.spell (front.map (Token.mapGap joinGap))) back := by
  induction front generalizing text with
  | nil => simp [AllGoOn, Token.spell]
  | cons token front ih =>
      rw [List.cons_append, AllGoOn, AllGoOn, ih, and_assoc]
      simp [Token.spell, Token.mapGap]

/-- What cannot be read goes on with anything. -/
theorem goesOn_of_notMem {text : List Char} (h : ':' ∉ text) (more : List Char) :
    GoesOn text more := by
  intro hread
  obtain ⟨statement, heq⟩ := Option.isSome_iff_exists.mp hread
  obtain ⟨front, rest, rfl, -⟩ := Statement.exists_colon_of_readFrom? heq
  exact absurd (by simp) h

/-- So does what cannot be read because nothing stands behind its colons. -/
theorem goesOn_of_not_hasInnerColon {text : List Char} (hequals : '=' ∉ text)
    (hfirst : text.head? ≠ some ':') (h : ¬ Statement.HasInnerColon text) (more : List Char) :
    GoesOn text more :=
  fun hread => absurd ((Statement.isSome_read?_iff hequals hfirst).mp hread) h

/-- Behind the sign of a default the statement goes on. -/
theorem goesOn_of_sign (text more : List Char) : GoesOn (text ++ [':', '=']) more := by
  refine fun _ => .inr ?_
  have hend : Text.trimEnd (text ++ [':', '=']) = text ++ [':', '='] := by
    rw [List.append_cons]
    exact Text.trimEnd_append_of_not_blank _ (by decide)
  rw [hend, List.reverse_append]
  rfl

/-- A statement without an equals sign does not end with the sign of a default. -/
theorem not_endsWithSign {text : List Char} (h : '=' ∉ text) :
    ¬ ['=', ':'].isPrefixOf (Text.trimEnd text).reverse = true := by
  intro hbegins
  obtain ⟨rest, heq⟩ := List.isPrefixOf_iff_prefix.mp hbegins
  refine h ((Text.sublist_trimEnd text).subset (List.mem_reverse.mp ?_))
  rw [← heq]
  exact List.mem_cons_self

theorem allGoOn_of_notMem {text : List Char} {tokens : List Token} (htext : ':' ∉ text)
    (htokens : ∀ token ∈ tokens, token.IsWellFormed ∧ ':' ∉ token.text) :
    AllGoOn text tokens ∧ ':' ∉ text ++ Token.spell (tokens.map (Token.mapGap joinGap)) := by
  induction tokens generalizing text with
  | nil => exact ⟨trivial, by simpa [Token.spell] using htext⟩
  | cons token tokens ih =>
      obtain ⟨⟨hwell, htoken⟩, htokens⟩ := List.forall_mem_cons.mp htokens
      have hgap := (isGap_joinGap hwell.gap).notMem (by decide : isGap ':' = false)
      obtain ⟨hgo, hlater⟩ := @ih (text ++ (joinGap token.gap ++ token.text))
        (by simp [htext, hgap, htoken]) htokens
      exact ⟨⟨fun _ => goesOn_of_notMem htext _, hgo⟩,
        by simpa [Token.spell, Token.mapGap] using hlater⟩

/-- The reader with the pieces of a statement that began in line `since` and has not ended. -/
def midway (reader : Reader) (since : Nat) (pending : List Char) : Reader :=
  { reader with
    pending
    pendingLine := since
    deferred := (Statement.read? pending).isSome }

theorem IsSettled.midway_nil (h : reader.IsSettled) :
    reader.midway reader.pendingLine [] = reader := by
  have hdeferred := h.deferred_eq
  rw [h.pending] at hdeferred
  rw [midway, ← hdeferred, ← h.pending]

/-- With the next code it is decided about a statement that could be complete. -/
theorem resume_of_deferred (hblock : reader.block = some block) (hdeferred : reader.deferred = true)
    {code : List Char} (hfilled : Text.allBlank code = false) :
    reader.resume rules code =
      if reader.continues code then { reader with deferred := false }
      else ({ reader with deferred := false } : Reader).endStatement rules block true := by
  rw [resume_inside hblock, hdeferred, hfilled]
  rfl

/-- **The statement goes on**, and nothing is decided about it. -/
theorem IsSettled.resume_midway (h : reader.IsSettled) (hblock : reader.block = some block)
    {since : Nat} {pending code : List Char} (hgo : GoesOn pending (Text.trimStart code))
    (hfilled : Text.allBlank code = false) :
    (reader.midway since pending).resume rules code =
      { reader with pending, pendingLine := since } := by
  by_cases hread : (Statement.read? pending).isSome = true
  · have hmidway : (reader.midway since pending).block = some block := hblock
    have hcontinues : (reader.midway since pending).continues code = true :=
      Bool.or_eq_true_iff.mpr (hgo hread)
    rw [resume_of_deferred hmidway hread hfilled, if_pos hcontinues, midway, ← h.deferred]
  · have hsame : reader.midway since pending = { reader with pending, pendingLine := since } := by
      rw [midway, Bool.eq_false_iff.mpr hread, ← h.deferred]
    rw [hsame, Reader.resume]
    dsimp only
    rw [h.deferred]
    rfl

/-- Lines without code are passed over. -/
theorem readLine_gap (hblock : reader.block = some block)
    (hdeferred : reader.deferred = (Statement.read? reader.pending).isSome) {gap : List Char}
    (hgap : IsGap gap) (number : Nat) :
    reader.readLine vendor.commentRules ⟨number, String.ofList gap, ""⟩ = reader := by
  have hblank : Text.allBlank gap = true := List.all_eq_true.mpr hgap.isBlank
  have hresume : reader.resume vendor.commentRules gap = reader := by
    rw [Reader.resume, hblank, Bool.not_true, Bool.and_false]
    rfl
  rw [Reader.readLine, String.toList_ofList, hresume]
  exact readRest_gap hblock hdeferred _ hgap (cut_gap hgap)

/-- **Blanks on several lines** are passed over up to the last of these lines. -/
theorem foldl_gap (hblock : reader.block = some block)
    (hdeferred : reader.deferred = (Statement.read? reader.pending).isSome) {gap : List Char}
    (hgap : ∀ c ∈ gap, Text.isBlank c = true) (number : Nat) :
    ∃ indent, IsGap indent ∧ ∀ rest,
      (linesFrom vendor.commentRules .code (.start number) (gap ++ rest)).foldl
          (readLine vendor.commentRules) reader =
        (linesFrom vendor.commentRules .code (.start (number + gap.count '\n'))
          (indent ++ rest)).foldl (readLine vendor.commentRules) reader := by
  -- The blanks of the line that is being read are kept apart.
  have hall : ∀ indent, IsGap indent → ∃ last, IsGap last ∧ ∀ rest,
      (linesFrom vendor.commentRules .code (.start number) (indent ++ (gap ++ rest))).foldl
          (readLine vendor.commentRules) reader =
        (linesFrom vendor.commentRules .code (.start (number + gap.count '\n'))
          (last ++ rest)).foldl (readLine vendor.commentRules) reader := by
    induction gap generalizing number with
    | nil => exact fun indent hindent => ⟨indent, hindent, fun rest => rfl⟩
    | cons c gap ih =>
        obtain ⟨hc, hrest⟩ := List.forall_mem_cons.mp hgap
        intro indent hindent
        by_cases hline : c = '\n'
        · subst hline
          obtain ⟨last, hlast, heq⟩ := ih hrest (number + 1) [] (List.forall_mem_nil _)
          refine ⟨last, hlast, fun rest => ?_⟩
          have hcode : isCode vendor.commentRules none indent = true := (isPlain_gap hindent).code
          rw [List.cons_append, linesFrom_plain hcode, List.foldl_cons,
            readLine_gap hblock hdeferred hindent, ← List.nil_append (gap ++ rest), heq,
            List.count_cons_self, Nat.add_right_comm, Nat.add_assoc]
        · have hone : IsGap [c] := isGap_of_notMem (List.forall_mem_singleton.mpr hc)
            fun hmem => hline (List.mem_singleton.mp hmem).symm
          obtain ⟨last, hlast, heq⟩ := ih hrest number (indent ++ [c])
            (List.forall_mem_append.mpr ⟨hindent, hone⟩)
          refine ⟨last, hlast, fun rest => ?_⟩
          rw [List.count_cons_of_ne hline, ← heq rest, List.append_assoc]
          rfl
  exact hall [] (List.forall_mem_nil _)

/-! ## Inside a line -/

/-- A place inside of a statement: the line that is being read, with its indent and what of it has
been passed, and the pieces of the statement in the lines before. -/
structure Place where
  number : Nat
  indent : List Char
  passed : List Char
  since : Nat
  pending : List Char

namespace Place

/-- The statement up to here. -/
def text (place : Place) : List Char :=
  glue place.pending place.passed

/-- A reader in front of the line, where no statement was open but this one. -/
def before (place : Place) (settled : Reader) : Reader :=
  settled.midway place.since place.pending

/-- The reader once it is decided that the statement goes on. -/
def resumed (place : Place) (settled : Reader) : Reader :=
  { settled with pending := place.pending, pendingLine := place.since }

/-- The lines from this one on. -/
def lines (vendor : Vendor) (place : Place) (rest : List Char) : List Line :=
  linesFrom vendor.commentRules .code (.start place.number) (place.indent ++ (place.passed ++ rest))

/-- The statement began in line `began` and has gone on up to here. -/
structure IsReached (began : Nat) (place : Place) : Prop where
  indent : IsGap place.indent
  trim : Text.trim place.passed = place.passed
  filled : Text.allBlank place.passed = false
  noLine : '\n' ∉ place.passed
  goesOn : GoesOn place.pending place.passed
  began : (if Text.allBlank place.pending then place.number else place.since) = began

variable {place : Place} {began : Nat} {gap : List Char}

theorem IsReached.allBlank_text (h : place.IsReached began) : Text.allBlank place.text = false := by
  unfold text glue
  split
  · exact h.filled
  · rename_i hpending
    have hfront : place.pending.all Text.isBlank = false := Bool.eq_false_iff.mpr hpending
    rw [Text.allBlank, List.all_append, hfront, Bool.false_and]

/-- What is passed begins with a character that is no blank. -/
theorem IsReached.exists_cons (h : place.IsReached began) :
    ∃ c rest, place.passed = c :: rest ∧ Text.isBlank c = false := by
  cases hpassed : place.passed with
  | nil =>
      have hfilled := h.filled
      rw [hpassed] at hfilled
      cases hfilled
  | cons c rest =>
      have htrim := h.trim
      rw [hpassed] at htrim
      exact ⟨c, rest, rfl, Text.head_of_trim_eq htrim⟩

theorem IsReached.append (h : place.IsReached began) {settled : Reader}
    (hsettled : settled.IsSettled) (hgap : IsGap gap) {line : Line}
    (hline : line.number = place.number) :
    (place.resumed settled).append line (place.indent ++ (place.passed ++ gap)) =
      { settled with
        pending := place.text, pendingLine := began, pendingComment := line.comment } := by
  have htrim : Text.trim (place.indent ++ (place.passed ++ gap)) = place.passed := by
    rw [Text.trim_blank_append _ h.indent.isBlank, Text.trim_append_blank _ hgap.isBlank, h.trim]
  exact hsettled.append_glue htrim h.filled line (hline ▸ h.began)

section

variable {settled : Reader} (hsettled : settled.IsSettled) (hblock : settled.block = some block)

include hsettled hblock

theorem IsReached.resume (h : place.IsReached began) (more : List Char) :
    (place.before settled).resume rules (place.indent ++ (place.passed ++ more)) =
      place.resumed settled := by
  obtain ⟨c, rest, hcons, hc⟩ := h.exists_cons
  have hstart : Text.trimStart (place.indent ++ (place.passed ++ more)) = place.passed ++ more := by
    rw [hcons]
    exact Statement.trimStart_gap _ h.indent.isBlank hc
  have hfilled : Text.allBlank (place.indent ++ (place.passed ++ more)) = false := by
    rw [Text.allBlank, List.all_eq_false]
    exact ⟨c, by simp [hcons], by simp [hc]⟩
  have hgo : GoesOn place.pending
      (Text.trimStart (place.indent ++ (place.passed ++ more))) := by
    rw [hstart]
    exact h.goesOn.append more
  exact hsettled.resume_midway hblock hgo hfilled

/-- **A line that ends here** leaves the statement up to here. -/
theorem IsReached.readLine (h : place.IsReached began) (hgap : IsGap gap)
    (hplain : IsPlain vendor.commentRules (place.indent ++ (place.passed ++ gap))) :
    (place.before settled).readLine vendor.commentRules
        ⟨place.number, String.ofList (place.indent ++ (place.passed ++ gap)), ""⟩ =
      settled.midway began place.text := by
  have hopen : (place.resumed settled).block = some block := hblock
  rw [Reader.readLine, String.toList_ofList, h.resume hsettled hblock, readRest_inside hopen,
    cut_plain hplain]
  dsimp only
  rw [h.append hsettled hgap rfl, midway, hsettled.pendingComment]

/-- **The line of the semicolon** adds what the statement is read as. -/
theorem IsReached.readLine_semicolon (h : place.IsReached began) (hgap : IsGap gap)
    (hplain : IsPlain vendor.commentRules (place.indent ++ (place.passed ++ gap)))
    {behind : List Char} (hbehind : IsGap behind)
    (htext : Text.trim place.text = place.text) (comment : String) :
    (place.before settled).readLine vendor.commentRules
        ⟨place.number,
          String.ofList (place.indent ++ (place.passed ++ gap) ++ ';' :: behind), comment⟩ =
      settled.addRead began place.text
        (readDeclarations vendor.commentRules place.text block comment began) := by
  have hopen : (place.resumed settled).block = some block := hblock
  have hresume : (place.before settled).resume vendor.commentRules
      (place.indent ++ (place.passed ++ (gap ++ ';' :: behind))) = place.resumed settled :=
    h.resume hsettled hblock _
  rw [← List.append_assoc place.passed, ← List.append_assoc place.indent] at hresume
  rw [Reader.readLine, String.toList_ofList, hresume, readRest_inside hopen,
    cut_semicolon hplain.passes]
  dsimp only
  rw [h.append hsettled hgap rfl,
    hsettled.endStatement_text htext h.allBlank_text block began comment]
  exact readRest_gap ((block_addRead ..).trans hblock) (hsettled.addRead _ _ _).deferred_eq _
    hbehind (cut_gap hbehind)

end

/-! ## From token to token -/

/-- What stands up to here in the line, and what follows, is plain but for its line breaks. -/
def Admits (vendor : Vendor) (place : Place) (rest : List Char) : Prop :=
  IsPlain vendor.commentRules ((place.indent ++ (place.passed ++ rest)).map soft)

/-- Behind this text the next place is reached. -/
structure Leads (vendor : Vendor) (settled : Reader) (place : Place) (text : List Char)
    (next : Place) : Prop where
  number : next.number = place.number + text.count '\n'
  lines : ∀ rest,
    (place.lines vendor (text ++ rest)).foldl (readLine vendor.commentRules)
        (place.before settled) =
      (next.lines vendor rest).foldl (readLine vendor.commentRules) (next.before settled)

variable {settled : Reader} {next last : Place} {front back : List Char}

theorem Leads.trans (hfront : Leads vendor settled place front next)
    (hback : Leads vendor settled next back last) :
    Leads vendor settled place (front ++ back) last where
  number := by rw [hback.number, hfront.number, List.count_append, Nat.add_assoc]
  lines rest := by rw [List.append_assoc, hfront.lines, hback.lines]

/-- What stands in the line is plain, and so is what follows blanks behind it. -/
theorem IsReached.isPlain (h : place.IsReached began)
    (hgap : ∀ c ∈ gap, Text.isBlank c = true) (hne : gap ≠ []) {rest : List Char}
    (hadmits : place.Admits vendor (gap ++ rest)) :
    IsPlain vendor.commentRules (place.indent ++ place.passed) ∧
      IsPlain vendor.commentRules (rest.map soft) := by
  have hsplit : (place.indent ++ (place.passed ++ (gap ++ rest))).map soft =
      (place.indent ++ place.passed) ++ (gap.map soft ++ rest.map soft) := by
    simp [map_soft_of_notMem h.noLine, map_soft_of_notMem (h.indent.notMem (by decide : _ = false))]
  rw [Admits, hsplit] at hadmits
  exact hadmits.of_append_gap (fun c hc => (isSeparator_of_isGap (isGap_map_soft hgap c hc)).1)
    (by simpa using hne)

/-- **Where the line ends**, the reader is left with the statement up to here, in front of the next
line that has code. -/
theorem IsReached.exists_nextLine (h : place.IsReached began) (hsettled : settled.IsSettled)
    (hblock : settled.block = some block)
    (hplain : IsPlain vendor.commentRules (place.indent ++ place.passed))
    (hgap : ∀ c ∈ gap, Text.isBlank c = true) (hline : '\n' ∈ gap) :
    ∃ indent, IsGap indent ∧ ∀ rest,
      (place.lines vendor (gap ++ rest)).foldl (Reader.readLine vendor.commentRules)
          (place.before settled) =
        (linesFrom vendor.commentRules .code (.start (place.number + gap.count '\n'))
          (indent ++ rest)).foldl (Reader.readLine vendor.commentRules)
            (settled.midway began place.text) := by
  obtain ⟨front, back, rfl, hfront⟩ := List.eq_append_cons_of_mem hline
  obtain ⟨hblankFront, hblankBack⟩ := List.forall_mem_append.mp hgap
  have hgapFront : IsGap front := isGap_of_notMem hblankFront hfront
  have hplainLine := hplain.append_blank hgapFront
  rw [List.append_assoc] at hplainLine
  have hmidway : (settled.midway began place.text).block = some block := hblock
  obtain ⟨indent, hindent, heq⟩ := @foldl_gap vendor _ _ hmidway rfl _
    (List.forall_mem_cons.mp hblankBack).2 (place.number + 1)
  refine ⟨indent, hindent, fun rest => ?_⟩
  have hsplit : place.indent ++ (place.passed ++ (front ++ '\n' :: back ++ rest)) =
      (place.indent ++ (place.passed ++ front)) ++ '\n' :: (back ++ rest) := by
    simp
  rw [lines, hsplit, linesFrom_plain hplainLine.code, List.foldl_cons,
    h.readLine hsettled hblock hgapFront hplainLine, heq, List.count_append, List.count_cons_self,
    List.count_eq_zero.mpr hfront]
  congr 3
  omega

/-- A token in the same line. -/
theorem IsReached.exists_sameLine (h : place.IsReached began) {token : Token}
    (htoken : token.IsWellFormed) (hline : '\n' ∉ token.gap) {rest : List Char}
    (hadmits : place.Admits vendor (token.gap ++ (token.text ++ rest))) :
    ∃ next : Place, next.IsReached began ∧
      next.text = place.text ++ (token.gap ++ token.text) ∧ next.Admits vendor rest ∧
      Leads vendor settled place (token.gap ++ token.text) next := by
  obtain ⟨c, tail, hcons, hc⟩ := h.exists_cons
  have hnoLine : '\n' ∉ token.gap ++ token.text := by
    rw [List.mem_append, not_or]
    exact ⟨hline, htoken.noLine⟩
  refine ⟨{ place with passed := place.passed ++ (token.gap ++ token.text) },
    ⟨h.indent, ?_, ?_, ?_, h.goesOn.append _, h.began⟩, ?_, ?_, ⟨?_, fun rest => ?_⟩⟩
  · refine Text.trim_of_head_getLast ?_ fun d hd => ?_
    · rw [hcons]
      rintro d ⟨⟩
      exact hc
    · rw [← List.append_assoc, List.getLast?_append,
        List.getLast?_eq_some_getLast htoken.text.1, Option.some_or] at hd
      exact htoken.text.2 d (Option.some.inj hd ▸ List.getLast_mem htoken.text.1)
  · have hfilled : place.passed.all Text.isBlank = false := h.filled
    rw [Text.allBlank, List.all_append, hfilled, Bool.false_and]
  · rw [List.mem_append, not_or]
    exact ⟨h.noLine, hnoLine⟩
  · unfold text glue
    split <;> simp
  · simpa [Admits] using hadmits
  · rw [List.count_eq_zero.mpr hnoLine, Nat.add_zero]
  · simp [lines, before]

/-- A token in a later line, if the statement goes on with it. -/
theorem IsReached.exists_laterLine (h : place.IsReached began) (hsettled : settled.IsSettled)
    (hblock : settled.block = some block) {token : Token} (htoken : token.IsWellFormed)
    (hline : '\n' ∈ token.gap) (hgo : GoesOn place.text token.text) {rest : List Char}
    (hadmits : place.Admits vendor (token.gap ++ (token.text ++ rest))) :
    ∃ next : Place, next.IsReached began ∧
      next.text = place.text ++ ' ' :: token.text ∧ next.Admits vendor rest ∧
      Leads vendor settled place (token.gap ++ token.text) next := by
  obtain ⟨hplain, hrest⟩ := h.isPlain htoken.gap (List.ne_nil_of_mem hline) hadmits
  obtain ⟨indent, hindent, heq⟩ := h.exists_nextLine hsettled hblock hplain htoken.gap hline
  have hfilled : Text.allBlank token.text = false := by
    obtain ⟨c, tail, hcons⟩ := List.exists_cons_of_ne_nil htoken.text.1
    have hc := htoken.text.2 c (hcons ▸ List.mem_cons_self)
    rw [hcons, Text.allBlank, List.all_cons, hc, Bool.false_and]
  refine ⟨⟨place.number + token.gap.count '\n', indent, token.text, began, place.text⟩,
    ⟨hindent, Text.trim_of_forall_not_blank htoken.text.2, hfilled, htoken.noLine, hgo, ?_⟩,
    ?_, ?_, ⟨?_, fun rest => ?_⟩⟩
  · rw [if_neg (by simp [h.allBlank_text])]
  · exact if_neg (by simp [h.allBlank_text])
  · rw [Admits, List.map_append, map_soft_of_notMem (hindent.notMem (by decide))]
    exact hrest.blank_append hindent
  · rw [List.count_append, List.count_eq_zero.mpr htoken.noLine, Nat.add_zero]
  · rw [List.append_assoc, heq]
    rfl

/-- **Tokens are read as if each line break were a blank**, as long as the statement goes on. -/
theorem IsReached.exists_place (h : place.IsReached began) (hsettled : settled.IsSettled)
    (hblock : settled.block = some block) {tokens : List Token}
    (htokens : ∀ token ∈ tokens, token.IsWellFormed) (hgo : AllGoOn place.text tokens)
    {rest : List Char} (hadmits : place.Admits vendor (Token.spell tokens ++ rest)) :
    ∃ next : Place, next.IsReached began ∧
      next.text = place.text ++ Token.spell (tokens.map (Token.mapGap joinGap)) ∧
      next.Admits vendor rest ∧ Leads vendor settled place (Token.spell tokens) next := by
  induction tokens generalizing place with
  | nil => exact ⟨place, h, (List.append_nil _).symm, hadmits, ⟨rfl, fun rest => rfl⟩⟩
  | cons token tokens ih =>
      obtain ⟨htoken, htokens⟩ := List.forall_mem_cons.mp htokens
      obtain ⟨hthis, hlater⟩ := hgo
      rw [Token.spell_cons] at hadmits
      obtain ⟨middle, hmiddle, htext, hrest, hleads⟩ : ∃ middle : Place, middle.IsReached began ∧
          middle.text = place.text ++ (joinGap token.gap ++ token.text) ∧
          middle.Admits vendor (Token.spell tokens ++ rest) ∧
          Leads vendor settled place (token.gap ++ token.text) middle := by
        unfold joinGap
        split
        · rename_i hline
          exact h.exists_laterLine hsettled hblock htoken hline (hthis hline) hadmits
        · rename_i hline
          exact h.exists_sameLine htoken hline hadmits
      obtain ⟨next, hnext, htextNext, hadmitsNext, hleadsNext⟩ :=
        ih hmiddle htokens (htext ▸ hlater) hrest
      refine ⟨next, hnext, ?_, hadmitsNext, hleads.trans hleadsNext⟩
      rw [htextNext, htext, List.append_assoc]
      rfl

end Place

end Reader

/-! ## Statements that break off -/

section

variable (rules : CommentRules) (mode : Mode) (draft : Draft)

/-- The code of a line begins with what has been read of it. -/
theorem exists_linesFrom (text : List Char) :
    ∃ code comment more, linesFrom rules mode draft text =
      ⟨draft.number, String.ofList (draft.code.reverse ++ code), comment⟩ :: more := by
  induction text generalizing mode draft with
  | nil => exact ⟨[], _, [], by rw [linesFrom, Draft.finish, List.append_nil]⟩
  | cons c rest ih =>
      rw [linesFrom]
      split
      · exact ⟨[], _, _, by rw [Draft.finish, List.append_nil]⟩
      · obtain ⟨hnumber, added, hcode⟩ := exists_readChar rules mode draft c rest.head?
        obtain ⟨code, comment, more, heq⟩ := ih (readChar rules mode draft c rest.head?).1
          (readChar rules mode draft c rest.head?).2
        refine ⟨added.reverse ++ code, comment, more, heq.trans ?_⟩
        rw [hnumber, hcode]
        simp

/-- The first character of code is code, or leaves a blank, unless two slashes begin with it. -/
theorem exists_linesFrom_code {text : List Char} (h : text.head? ≠ some '/') :
    ∃ code comment more, linesFrom rules .code draft text =
        ⟨draft.number, String.ofList (draft.code.reverse ++ code), comment⟩ :: more ∧
      ∀ c ∈ code.head?, c = ' ' ∨ text.head? = some c := by
  cases text with
  | nil =>
      refine ⟨[], _, [], by rw [linesFrom, Draft.finish, List.append_nil], ?_⟩
      exact fun c hc => absurd hc (Option.not_mem_none c)
  | cons c rest =>
      by_cases hline : c = '\n'
      · refine ⟨[], _, _, by rw [linesFrom, if_pos hline, Draft.finish, List.append_nil], ?_⟩
        exact fun c hc => absurd hc (Option.not_mem_none c)
      · obtain ⟨d, hd, hnumber, hcode⟩ : ∃ d, (d = ' ' ∨ c = d) ∧
            (readCode rules draft c rest.head?).2.number = draft.number ∧
            (readCode rules draft c rest.head?).2.code = d :: draft.code := by
          have hslash : isMark ('/', '/') c rest.head? = false := by
            refine Bool.and_eq_false_iff.mpr (.inl (beq_false_of_ne ?_))
            rintro rfl
            exact h rfl
          unfold readCode Draft.addComment
          rw [hslash, if_neg Bool.false_ne_true]
          split
          · refine ⟨' ', .inl rfl, ?_⟩
            split <;> exact ⟨rfl, rfl⟩
          · split
            · exact ⟨' ', .inl rfl, rfl, rfl⟩
            · split <;> exact ⟨c, .inr rfl, rfl, rfl⟩
        obtain ⟨code, comment, more, heq⟩ := exists_linesFrom rules
          (readCode rules draft c rest.head?).1 (readCode rules draft c rest.head?).2 rest
        refine ⟨d :: code, comment, more, ?_, ?_⟩
        · rw [linesFrom, if_neg hline]
          refine heq.trans ?_
          rw [hnumber, hcode]
          simp
        · rintro e ⟨⟩
          exact hd.imp_right (congrArg some)

end

/-- **The code of a line that begins with a colon or a semicolon** begins with it, and with the sign
of a default only if the line does. -/
theorem exists_linesFrom_mark {indent rest : List Char} (hindent : IsGap indent) {mark : Char}
    (hmark : mark = ';' ∨ mark = ':' ∧ rest.head? ≠ some '/')
    (hbegins : ¬ [':', '='].isPrefixOf (mark :: rest) = true) (number : Nat) :
    ∃ code comment more,
      linesFrom vendor.commentRules .code (.start number) (indent ++ mark :: rest) =
        ⟨number, String.ofList (indent ++ mark :: code), comment⟩ :: more ∧
      [':', '='].isPrefixOf (mark :: code) = false := by
  have hkind : (isGap mark || mark == ':' || mark == ';') = true := by
    rcases hmark with rfl | ⟨rfl, -⟩ <;> decide
  have hcode : ∀ c ∈ indent ++ [mark], (isGap c || c == ':' || c == ';') = true :=
    List.forall_mem_append.mpr ⟨fun c hc => by simp [hindent c hc],
      List.forall_mem_singleton.mpr hkind⟩
  have hdraft : ∀ code, ((indent ++ [mark]).reverse ++ []).reverse ++ code =
      indent ++ mark :: code := by
    simp
  rw [List.append_cons, linesFrom_of_isCode _ (isCode_of_forall (by decide) hcode), Draft.start]
  rcases hmark with rfl | ⟨rfl, hslash⟩
  · obtain ⟨code, comment, more, heq⟩ := exists_linesFrom vendor.commentRules .code _ rest
    exact ⟨code, comment, more, hdraft code ▸ heq, rfl⟩
  · obtain ⟨code, comment, more, heq, hfirst⟩ :=
      exists_linesFrom_code vendor.commentRules _ hslash
    refine ⟨code, comment, more, hdraft code ▸ heq, ?_⟩
    rcases code with - | ⟨c, code⟩
    · rfl
    · obtain rfl | hrest := hfirst c rfl
      · rfl
      · obtain ⟨tail, rfl⟩ := List.head?_eq_some_iff.mp hrest
        exact Bool.eq_false_iff.mpr hbegins

namespace Reader

variable {reader settled : Reader} {rules : CommentRules} {block : Block}

/-- **A problem is reported** if a statement that could be complete does not go on. -/
theorem diagnostics_readLine_ne_nil (hblock : reader.block = some block)
    (hdeferred : reader.deferred = true) (hpending : Text.allBlank reader.pending = false)
    {line : Line} (hfilled : Text.allBlank line.code.toList = false)
    (hnot : reader.continues line.code.toList = false) :
    (reader.readLine rules line).diagnostics ≠ [] := by
  rw [Reader.readLine, resume_of_deferred hblock hdeferred hfilled, hnot,
    if_neg Bool.false_ne_true]
  exact (grows_readRest _ rules line _).diagnostics_ne_nil
    (diagnostics_endStatement_ne_nil { reader with deferred := false } rules hpending block)

/-- **A line break in front of a colon or a semicolon** with which the statement does not go on is
reported, and whatever follows, this stays. -/
theorem Place.IsReached.diagnostics_of_break {place : Place} {began : Nat}
    (h : place.IsReached began) (hsettled : settled.IsSettled) (hblock : settled.block = some block)
    (hplain : IsPlain vendor.commentRules (place.indent ++ place.passed)) {gap : List Char}
    (hgap : ∀ c ∈ gap, Text.isBlank c = true) (hline : '\n' ∈ gap) {mark : Char}
    {rest : List Char} (hmark : mark = ';' ∨ mark = ':' ∧ rest.head? ≠ some '/')
    (hnot : ¬ GoesOn place.text (mark :: rest)) :
    ((place.lines vendor (gap ++ mark :: rest)).foldl (Reader.readLine vendor.commentRules)
      (place.before settled)).diagnostics ≠ [] := by
  obtain ⟨indent, hindent, heq⟩ := h.exists_nextLine hsettled hblock hplain hgap hline
  obtain ⟨hread, hneither⟩ := Classical.not_imp.mp hnot
  obtain ⟨hbegins, hends⟩ := not_or.mp hneither
  have hblank : Text.isBlank mark = false := by
    rcases hmark with rfl | ⟨rfl, -⟩ <;> decide
  -- The code of the next line with code begins with the mark, and does not go on with a default.
  obtain ⟨code, comment, more, hlines, hbehind⟩ :=
    @exists_linesFrom_mark vendor _ _ hindent _ hmark hbegins (place.number + gap.count '\n')
  have hmidway : (settled.midway began place.text).block = some block := hblock
  rw [heq, hlines, List.foldl_cons]
  refine (grows_readLines _ _ more).diagnostics_ne_nil ?_
  refine diagnostics_readLine_ne_nil hmidway hread h.allBlank_text ?_ ?_
  · rw [String.toList_ofList, Text.allBlank, List.all_eq_false]
    exact ⟨mark, by simp, by simp [hblank]⟩
  · rw [String.toList_ofList, continues, Statement.trimStart_gap _ hindent.isBlank hblank, hbehind,
      Bool.false_or]
    exact Bool.eq_false_iff.mpr hends

end Reader

end PlcTags.Source
