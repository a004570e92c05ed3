import PlcTags.Proofs.Source.Spelling

/-!
# The line of a declaration

The code of a declaration reaches the reader as it is written, and as one piece that ends at
the semicolon.  Such texts are passed on by the lexer and by the search for the end of a
piece alike (`Passes`): plain texts are, literals are whatever they hold, and one behind the
other they are again (`Passes.append`).  What follows two slashes behind the semicolon is
the comment of the line (`linesFrom_line`).
-/

namespace PlcTags.Source

variable {rules : CommentRules} {vendor : Vendor} {spelled : Spelled}

/-! ## Texts that are passed on -/

/-- What begins with this neither completes a mark nor continues a word. -/
def EndsCode (text : List Char) : Prop :=
  ∀ c ∈ text.head?, c ≠ '/' ∧ c ≠ '*' ∧ continuesName c = false

theorem endsCode_of_isSeparator {text : List Char}
    (h : ∀ c ∈ text.head?, isSeparator c = true) : EndsCode text := by
  intro c hc
  obtain ⟨hname, -, -, -, hmarks⟩ := spec_of_isSeparator (h c hc)
  simp only [List.mem_cons, not_or] at hmarks
  exact ⟨hmarks.1, hmarks.2.1, hname⟩

/-- A text that is code as it is written, and in which no piece of a line ends. -/
structure Passes (rules : CommentRules) (text : List Char) : Prop where
  lines : ∀ (draft : Draft) (rest : List Char), EndsCode rest →
    linesFrom rules .code draft (text ++ rest) =
      linesFrom rules .code { draft with code := text.reverse ++ draft.code } rest
  cut : ∀ before rest : List Char, EndsCode before → EndsCode rest →
    cutFrom rules .code before (text ++ rest) = cutFrom rules .code (text.reverse ++ before) rest

theorem IsPlain.passes {text : List Char} (h : IsPlain vendor.commentRules text) :
    Passes vendor.commentRules text where
  lines draft rest hrest := linesFrom_of_isCode draft <|
    isCode_of_none (blockOpen_snd vendor) h.code fun c hc => ⟨(hrest c hc).1, (hrest c hc).2.1⟩
  cut before rest hbefore hrest := by
    have hend : holdsEndVar before.head? text = false := by
      rw [← h.noEndVar]
      cases hhead : before.head? with
      | none => rfl
      | some c => exact holdsEndVar_some (hbefore c hhead).2.2 text
    exact cutFrom_of_isCode h.code h.noSemicolon hend fun c hc => (hrest c hc).2.2

/-- One text behind the other. -/
theorem Passes.append {front back : List Char} (hfront : Passes rules front)
    (hback : Passes rules back) (hlast : EndsCode front.reverse) (hfirst : EndsCode back)
    (hne : front ≠ [] ∧ back ≠ []) : Passes rules (front ++ back) := by
  have hends : ∀ {text : List Char}, text ≠ [] → EndsCode text →
      ∀ rest, EndsCode (text ++ rest) := by
    intro text hne htext rest c hc
    obtain ⟨d, tail, rfl⟩ := List.exists_cons_of_ne_nil hne
    exact htext c hc
  refine ⟨fun draft rest hrest => ?_, fun before rest hbefore hrest => ?_⟩
  · rw [List.append_assoc, hfront.lines draft _ (hends hne.2 hfirst rest), hback.lines _ _ hrest,
      List.reverse_append, List.append_assoc]
  · rw [List.append_assoc, hfront.cut before _ hbefore (hends hne.2 hfirst rest),
      hback.cut _ _ (hends (by simpa using hne.1) hlast before) hrest, List.reverse_append,
      List.append_assoc]

/-! ## Between quotes -/

/-- Whether a character takes the one behind it out of its role. -/
def escapes (escaped : Bool) (c : Char) : Bool :=
  !escaped && c == '$'

theorem afterQuoted_of_ne {quote c : Char} (h : c ≠ quote) (escaped : Bool) :
    afterQuoted quote escaped c = .quoted quote (escapes escaped c) := by
  by_cases hc : c = '$' <;> cases escaped <;> simp [afterQuoted, escapes, h, hc]

theorem linesFrom_quoted {quote : Char} {body : List Char}
    (h : ∀ c ∈ body, c ≠ quote ∧ c ≠ '\n') (escaped : Bool) (draft : Draft) (rest : List Char) :
    linesFrom rules (.quoted quote escaped) draft (body ++ rest) =
      linesFrom rules (.quoted quote (body.foldl escapes escaped))
        { draft with code := body.reverse ++ draft.code } rest := by
  induction body generalizing escaped draft with
  | nil => rfl
  | cons c body ih =>
      obtain ⟨⟨hquote, hline⟩, hbody⟩ := List.forall_mem_cons.mp h
      rw [List.cons_append, linesFrom, if_neg hline]
      simp only [readChar, afterQuoted_of_ne hquote]
      rw [ih hbody, List.foldl_cons, List.reverse_cons, List.append_assoc]
      rfl

theorem cutFrom_quoted {quote : Char} {body : List Char} (h : ∀ c ∈ body, c ≠ quote)
    (escaped : Bool) (before rest : List Char) :
    cutFrom rules (.quoted quote escaped) before (body ++ rest) =
      cutFrom rules (.quoted quote (body.foldl escapes escaped)) (body.reverse ++ before) rest := by
  induction body generalizing escaped before with
  | nil => rfl
  | cons c body ih =>
      obtain ⟨hquote, hbody⟩ := List.forall_mem_cons.mp h
      rw [List.cons_append, cutFrom, afterQuoted_of_ne hquote, ih hbody, List.foldl_cons,
        List.reverse_cons, List.append_assoc]
      rfl

/-- A quote is code, and what stands behind it is quoted. -/
theorem readCode_quote {quote : Char} (h : isQuote vendor.commentRules quote = true)
    (draft : Draft) (next : Option Char) :
    readCode vendor.commentRules draft quote next = (.quoted quote false, draft.addCode quote) := by
  have hquote : (quote == '\'' || (vendor.commentRules.quotedNames && quote == '"')) = true := h
  simp only [isQuote, Bool.or_eq_true, Bool.and_eq_true, beq_iff_eq] at h
  have hmark : isMark ('/', '/') quote next = false ∧
      isMark vendor.commentRules.blockOpen quote next = false ∧ (quote == '\x7b') = false := by
    obtain rfl | ⟨-, rfl⟩ := h <;> cases vendor <;> exact ⟨rfl, rfl, rfl⟩
  rw [readCode, hmark.1, hmark.2.1, hmark.2.2, Bool.and_false, hquote]
  rfl

theorem linesFrom_quote {quote : Char} (h : isQuote vendor.commentRules quote = true)
    (draft : Draft) (rest : List Char) :
    linesFrom vendor.commentRules .code draft (quote :: rest) =
      linesFrom vendor.commentRules (.quoted quote false) (draft.addCode quote) rest := by
  have hline : quote ≠ '\n' := by
    rintro rfl
    cases vendor <;> cases h
  rw [linesFrom, if_neg hline]
  simp only [readChar, readCode_quote h]

theorem cutFrom_quote {quote : Char} (h : isQuote rules quote = true) (before rest : List Char) :
    cutFrom rules .code before (quote :: rest) =
      cutFrom rules (.quoted quote false) (quote :: before) rest := by
  have hquote : (quote == '\'' || (rules.quotedNames && quote == '"')) = true := h
  rw [cutFrom]
  · rw [if_pos hquote]
  · intro other escaped heq
    cases heq

/-- **A text between quotes is passed on**, whatever it holds. -/
theorem passes_quoted {quote : Char} {body : List Char}
    (hopen : isQuote vendor.commentRules quote = true)
    (h : ∀ c ∈ body, c ≠ quote ∧ c ≠ '\n') (hclosed : body.foldl escapes false = false) :
    Passes vendor.commentRules (quote :: (body ++ [quote])) := by
  have hdollar : (quote == '$') = false := by
    simp only [isQuote, Bool.or_eq_true, Bool.and_eq_true, beq_iff_eq] at hopen
    obtain rfl | ⟨-, rfl⟩ := hopen <;> rfl
  have hclose : afterQuoted quote false quote = .code := by
    simp [afterQuoted, hdollar]
  have hline : quote ≠ '\n' := by
    rintro rfl
    cases vendor <;> cases hopen
  have hsplit : ∀ rest, quote :: (body ++ [quote]) ++ rest =
      quote :: (body ++ quote :: rest) := by
    simp
  refine ⟨fun draft rest _ => ?_, fun before rest _ _ => ?_⟩
  · rw [hsplit, linesFrom_quote hopen, linesFrom_quoted h, hclosed, linesFrom, if_neg hline]
    simp only [readChar, hclose]
    simp [Draft.addCode]
  · rw [hsplit, cutFrom_quote hopen, cutFrom_quoted fun c hc => (h c hc).1, hclosed, cutFrom,
      hclose]
    simp

/-- **A literal is passed on.** -/
theorem passes_literal {body : List Char} (h : Default.IsBody body) :
    Passes vendor.commentRules ('\'' :: (body ++ ['\''])) := by
  have hclosed : body.foldl escapes false = false := by
    induction body with
    | nil => rfl
    | cons c body ih =>
        obtain ⟨hc, hbody⟩ := List.forall_mem_cons.mp h
        have hstep : escapes false c = false := by simp [escapes, hc.2.1]
        rw [List.foldl_cons, hstep, ih hbody]
  refine passes_quoted ?_ (fun c hc => ⟨(h c hc).1, (h c hc).2.2⟩) hclosed
  rfl

/-! ## Separators and plain texts -/

theorem isPlain_gap {gap : List Char} (h : IsGap gap) : IsPlain vendor.commentRules gap := by
  have hnil : IsPlain vendor.commentRules [] := isPlain_nil
  cases gap with
  | nil => exact hnil
  | cons c gap =>
      have hgap := hnil.append_gap (fun d hd => (h.isSeparator d hd).1)
        (List.cons_ne_nil c gap) hnil
      rwa [List.nil_append, List.append_nil] at hgap

theorem IsPlain.append_blank {text gap : List Char} (h : IsPlain vendor.commentRules text)
    (hgap : IsGap gap) : IsPlain vendor.commentRules (text ++ gap) := by
  cases gap with
  | nil => rwa [List.append_nil]
  | cons c gap =>
      obtain ⟨hc, hgap⟩ := List.forall_mem_cons.mp hgap
      exact h.append (isSeparator_of_isGap hc).1 (isPlain_gap hgap)

theorem IsPlain.blank_append {text gap : List Char} (hgap : IsGap gap)
    (h : IsPlain vendor.commentRules text) : IsPlain vendor.commentRules (gap ++ text) := by
  cases gap with
  | nil => exact h
  | cons c gap =>
      exact isPlain_nil.append_gap (fun d hd => (hgap.isSeparator d hd).1)
        (List.cons_ne_nil c gap) h

/-- Separators around one that is no blank. -/
theorem isSeparator_around {before after : List Char} {c : Char} (hbefore : IsGap before)
    (hc : isSeparator c = true) (hafter : ∀ d ∈ after, isSeparator d = true) :
    ∀ d ∈ before ++ c :: after, isSeparator d = true :=
  List.forall_mem_append.mpr ⟨fun d hd => (hbefore.isSeparator d hd).1,
    List.forall_mem_cons.mpr ⟨hc, hafter⟩⟩

theorem IsName.isPlain {name : String} (h : IsName name) :
    IsPlain vendor.commentRules name.toList :=
  isPlain_identifier h.1 h.2

theorem isPlain_others {text : List Char} {others : List NextName}
    (h : IsPlain vendor.commentRules text) (hothers : ∀ next ∈ others, next.IsWellFormed) :
    IsPlain vendor.commentRules (text ++ others.flatMap NextName.text) := by
  induction others generalizing text with
  | nil => rwa [List.flatMap_nil, List.append_nil]
  | cons next rest ih =>
      obtain ⟨hnext, hrest⟩ := List.forall_mem_cons.mp hothers
      have hgap := isSeparator_around hnext.before (c := ',') (by decide)
        fun d hd => (hnext.after.isSeparator d hd).1
      have hname : IsPlain vendor.commentRules next.name.toList := hnext.name.isPlain
      have hthis := h.append_gap hgap (by simp) hname
      have hall := ih hthis hrest
      simpa [NextName.text] using hall

/-! ## Code that a semicolon ends -/

theorem endsCode_nil : EndsCode [] :=
  fun c hc => absurd hc (Option.not_mem_none c)

theorem endsCode_semicolon (rest : List Char) : EndsCode (';' :: rest) := by
  rintro c ⟨⟩
  decide +kernel

theorem Passes.linesFrom_semicolon {code gap : List Char} (h : Passes vendor.commentRules code)
    (hgap : IsGap gap) (number : Nat) (rest : List Char) :
    linesFrom vendor.commentRules .code (.start number) ((code ++ ';' :: gap) ++ rest) =
      linesFrom vendor.commentRules .code ⟨number, (code ++ ';' :: gap).reverse, [], false⟩
        rest := by
  have hend : ∀ c ∈ ';' :: gap, (isGap c || c == ';') = true :=
    List.forall_mem_cons.mpr ⟨rfl, fun c hc => by simp [hgap c hc]⟩
  rw [List.append_assoc, h.lines _ (';' :: gap ++ rest) (endsCode_semicolon _),
    linesFrom_of_isCode _ (isCode_of_forall (by decide) hend)]
  simp [Draft.start]

/-- The piece in front of the semicolon is the code. -/
theorem cut_semicolon {code : List Char} (h : Passes rules code) (gap : List Char) :
    cut rules (code ++ ';' :: gap) = .semicolon code gap := by
  rw [cut, h.cut [] _ endsCode_nil (endsCode_semicolon _), cutFrom]
  · rw [if_neg (by simp), List.append_nil, List.reverse_reverse]
    rfl
  · intro quote escaped heq
    cases heq

/-- A plain text is a line. -/
theorem linesFrom_plain {text : List Char} (h : isCode vendor.commentRules none text = true)
    (number : Nat) (rest : List Char) :
    linesFrom vendor.commentRules .code (.start number) (text ++ '\n' :: rest) =
      ⟨number, String.ofList text, ""⟩ ::
        linesFrom vendor.commentRules .code (.start (number + 1)) rest := by
  have hcode : isCode vendor.commentRules (some '\n') text = true :=
    isCode_of_none (blockOpen_snd vendor) h (by rintro c ⟨⟩; decide)
  rw [linesFrom_of_isCode _ hcode, linesFrom, if_pos rfl, Draft.finish, Draft.start,
    List.append_nil, List.reverse_reverse]
  rfl

/-- No piece ends in a plain text. -/
theorem cut_plain {text : List Char} (h : IsPlain vendor.commentRules text) :
    cut vendor.commentRules text = .lineEnd text := by
  have hcut := h.passes.cut [] [] endsCode_nil endsCode_nil
  rw [List.append_nil, List.append_nil] at hcut
  rw [cut, hcut, cutFrom, List.reverse_reverse]

theorem cut_gap {gap : List Char} (h : IsGap gap) :
    cut vendor.commentRules gap = .lineEnd gap :=
  cut_plain (isPlain_gap h)

/-! ## The code of a declaration -/

namespace Spelled

/-- The code up to the type. -/
def stem (spelled : Spelled) : List Char :=
  spelled.indent ++ (spelled.namesText ++ ((spelled.placed.map Placed.text).getD [] ++
    ((spelled.beforeColon ++ ':' :: spelled.afterColon) ++ spelled.typeName.toList)))

/-- The code up to the semicolon. -/
def code (spelled : Spelled) : List Char :=
  spelled.indent ++ (spelled.statement ++ spelled.beforeSemicolon)

theorem code_eq (spelled : Spelled) :
    spelled.code = spelled.stem ++ (spelled.initialText ++ spelled.beforeSemicolon) := by
  simp [code, stem, statement, tailText, typeText]

theorem isPlain_stem (h : spelled.IsWellFormed vendor) :
    IsPlain vendor.commentRules spelled.stem := by
  have hnames : IsPlain vendor.commentRules spelled.namesText :=
    isPlain_others h.first.isPlain h.others
  have hplaced : IsPlain vendor.commentRules
      (spelled.namesText ++ (spelled.placed.map Placed.text).getD []) := by
    cases hplaced : spelled.placed with
    | none => simpa using hnames
    | some placed =>
        have hwell := h.placed placed hplaced
        obtain ⟨element, helement⟩ := hwell.accepted
        have hat : IsPlain vendor.commentRules ['A', 'T'] :=
          isPlain_identifier (by decide) (by decide)
        have hword := hnames.append_gap (fun d hd => (hwell.before.1.isSeparator d hd).1)
          hwell.before.2 hat
        have hall := hword.append_gap (fun d hd => (hwell.after.1.isSeparator d hd).1)
          hwell.after.2 (isPlain_address helement hwell.noBlank)
        simpa [Placed.text] using hall
  have hcolon := isSeparator_around h.beforeColon (c := ':') (by decide)
    fun d hd => (h.afterColon.isSeparator d hd).1
  have htype := hplaced.append_gap hcolon (by simp) ((isName_typeName h.typeName).isPlain)
  have hall := htype.blank_append h.indent
  simpa [stem] using hall

theorem isSeparator_assign {initial : Initial} (h : initial.IsWellFormed vendor) :
    ∀ c ∈ initial.before ++ ':' :: '=' :: initial.after, isSeparator c = true :=
  isSeparator_around h.before (by decide) (List.forall_mem_cons.mpr
    ⟨by decide, fun d hd => (h.after.isSeparator d hd).1⟩)

theorem code_of_initial {initial : Initial} (h : spelled.initial = some initial) :
    spelled.code = (spelled.stem ++ (initial.before ++ ':' :: '=' :: initial.after)) ++
      (initial.default.written ++ spelled.beforeSemicolon) := by
  simp [code_eq, initialText, h, Initial.text]

/-- Without a literal, the code is plain. -/
theorem isPlain_code (h : spelled.IsWellFormed vendor)
    (htoken : ∀ initial ∈ spelled.initial, ∃ text, initial.default = .token text) :
    IsPlain vendor.commentRules spelled.code := by
  have hstem := isPlain_stem h
  cases hinitial : spelled.initial with
  | none =>
      rw [code_eq, initialText, hinitial]
      exact hstem.append_blank h.beforeSemicolon
  | some initial =>
      have hwell := h.initial initial hinitial
      obtain ⟨text, hdefault⟩ := htoken initial hinitial
      have hplain : IsPlain vendor.commentRules text.toList := by
        have hadmitted := hwell.default
        rw [hdefault] at hadmitted
        exact hadmitted.2.2
      have hall := (hstem.append_gap (isSeparator_assign hwell) (by simp) hplain).append_blank
        h.beforeSemicolon
      rw [code_of_initial hinitial, hdefault]
      simpa [Default.written] using hall

/-- **The code of a declaration is passed on.** -/
theorem passes_code (h : spelled.IsWellFormed vendor) :
    Passes vendor.commentRules spelled.code := by
  cases hinitial : spelled.initial with
  | none => exact (isPlain_code h (by simp [hinitial])).passes
  | some initial =>
      have hwell := h.initial initial hinitial
      have hassign := isSeparator_assign hwell
      -- A token goes on as plain text does, but a literal is passed on by a lemma of its own.
      cases hdefault : initial.default with
      | token text => exact (isPlain_code h (by simp [hinitial, hdefault])).passes
      | literal body =>
          have hbody : Default.IsBody body.toList := by
            have hadmitted := hwell.default
            rwa [hdefault] at hadmitted
          have hfront : IsPlain vendor.commentRules
              (spelled.stem ++ (initial.before ++ ':' :: '=' :: initial.after)) := by
            simpa using (isPlain_stem h).append_gap hassign (by simp) isPlain_nil
          have hlast : EndsCode
              (spelled.stem ++ (initial.before ++ ':' :: '=' :: initial.after)).reverse := by
            refine endsCode_of_isSeparator fun c hc => ?_
            have hne : initial.before ++ ':' :: '=' :: initial.after ≠ [] := by simp
            rw [List.head?_reverse, List.getLast?_append, List.getLast?_eq_some_getLast hne,
              Option.some_or] at hc
            exact hassign c (Option.some.inj hc ▸ List.getLast_mem hne)
          have hliteral : Passes vendor.commentRules
              ((Default.literal body).written ++ spelled.beforeSemicolon) := by
            by_cases hgap : spelled.beforeSemicolon = []
            · rw [hgap, List.append_nil]
              exact passes_literal hbody
            · refine (passes_literal hbody).append (isPlain_gap h.beforeSemicolon).passes ?_ ?_
                ⟨List.cons_ne_nil _ _, hgap⟩
              · intro c hc
                simp at hc
                subst hc
                decide +kernel
              · exact endsCode_of_isSeparator fun c hc =>
                  (h.beforeSemicolon.isSeparator c (List.mem_of_head? hc)).1
          rw [code_of_initial hinitial, hdefault]
          refine hfront.passes.append hliteral hlast ?_ ⟨by simp, by simp [Default.written]⟩
          rintro c ⟨⟩
          decide +kernel

/-- The line is the code and the semicolon, with blanks behind it. -/
theorem line_eq (spelled : Spelled) :
    spelled.line = spelled.code ++ ';' :: spelled.afterSemicolon := by
  simp [line, code]

/-! ## Comments -/

/-- How a comment is written behind a line. -/
def commentText : Option (List Char) → List Char
  | some text => '/' :: '/' :: text
  | none => []

theorem linesFrom_comment {text : List Char} (h : '\n' ∉ text) {draft : Draft}
    (hbelongs : draft.belongs = true) (rest : List Char) :
    linesFrom rules .lineComment draft (text ++ '\n' :: rest) =
      { draft with comment := text.reverse ++ draft.comment }.finish ::
        linesFrom rules .code (.start (draft.number + 1)) rest := by
  induction text generalizing draft with
  | nil =>
      rw [List.nil_append, linesFrom, if_pos rfl]
      rfl
  | cons c text ih =>
      simp only [List.mem_cons, not_or] at h
      have hadd : draft.addComment c = { draft with comment := c :: draft.comment } :=
        if_pos hbelongs
      rw [List.cons_append, linesFrom, if_neg fun heq => h.1 heq.symm]
      have hstep := @ih h.2 { draft with comment := c :: draft.comment } hbelongs
      simp only [readChar, hadd]
      rw [hstep, List.reverse_cons, List.append_assoc]
      rfl

/-- Behind the code of a line stands its comment, if it has one. -/
theorem linesFrom_commentText {code : List Char} (hfilled : Text.allBlank code = false)
    (number : Nat) {comment : Option (List Char)} (hcomment : ∀ text ∈ comment, '\n' ∉ text)
    (rest : List Char) :
    linesFrom vendor.commentRules .code ⟨number, code.reverse, [], false⟩
        (commentText comment ++ '\n' :: rest) =
      ⟨number, String.ofList code, String.ofList (Text.squeeze (comment.getD []))⟩ ::
        linesFrom vendor.commentRules .code (.start (number + 1)) rest := by
  cases comment with
  | none =>
      rw [commentText, List.nil_append, linesFrom, if_pos rfl, Draft.finish, List.reverse_reverse]
      rfl
  | some text =>
      have hcode : (⟨number, code.reverse, [], false⟩ : Draft).hasCode = true := by
        rw [Draft.hasCode, Bool.not_eq_true', Text.allBlank, List.all_reverse]
        exact hfilled
      rw [commentText, List.cons_append, List.cons_append, linesFrom, if_neg (by decide)]
      simp only [readChar, readCode, List.head?_cons, isMark, beq_self_eq_true, Bool.and_self,
        if_true]
      rw [linesFrom, if_neg (by decide)]
      simp only [readChar]
      rw [linesFrom_comment (hcomment text rfl) hcode]
      simp [Draft.openComment, Draft.finish]

/-- Code that a semicolon ends is a line, with the words of the comment behind it. -/
theorem linesFrom_commented {code gap : List Char} (h : Passes vendor.commentRules code)
    (hgap : IsGap gap) (number : Nat) {comment : Option (List Char)}
    (hcomment : ∀ text ∈ comment, '\n' ∉ text) (rest : List Char) :
    linesFrom vendor.commentRules .code (.start number)
        ((code ++ ';' :: gap) ++ (commentText comment ++ '\n' :: rest)) =
      ⟨number, String.ofList (code ++ ';' :: gap),
        String.ofList (Text.squeeze (comment.getD []))⟩ ::
          linesFrom vendor.commentRules .code (.start (number + 1)) rest := by
  have hfilled : Text.allBlank (code ++ ';' :: gap) = false := by
    rw [Text.allBlank, List.all_eq_false]
    exact ⟨';', by simp, by decide⟩
  rw [h.linesFrom_semicolon hgap, linesFrom_commentText hfilled number hcomment]

/-- **The line of a declaration** is its code with the words of its comment. -/
theorem linesFrom_line (h : spelled.IsWellFormed vendor) (number : Nat)
    {comment : Option (List Char)} (hcomment : ∀ text ∈ comment, '\n' ∉ text) (rest : List Char) :
    linesFrom vendor.commentRules .code (.start number)
        (spelled.line ++ (commentText comment ++ '\n' :: rest)) =
      ⟨number, String.ofList spelled.line, String.ofList (Text.squeeze (comment.getD []))⟩ ::
        linesFrom vendor.commentRules .code (.start (number + 1)) rest := by
  rw [line_eq]
  exact linesFrom_commented (passes_code h) h.afterSemicolon number hcomment rest

/-! ## Pieces -/

/-- **The first piece of the line** is the code, and nothing else follows it. -/
theorem cut_line (h : spelled.IsWellFormed vendor) :
    cut vendor.commentRules spelled.line = .semicolon spelled.code spelled.afterSemicolon ∧
      cut vendor.commentRules spelled.afterSemicolon = .lineEnd spelled.afterSemicolon := by
  rw [line_eq]
  exact ⟨cut_semicolon (passes_code h) _, cut_gap h.afterSemicolon⟩

/-- A statement does not end with a blank. -/
theorem getLast?_statement (h : spelled.IsWellFormed vendor) :
    ∀ c ∈ spelled.statement.getLast?, Text.isBlank c = false := by
  -- The end of a text is that of its last part, if this is not empty.
  have hlast : ∀ front back : List Char, back ≠ [] → (∀ c ∈ back.getLast?, Text.isBlank c = false) →
      ∀ c ∈ (front ++ back).getLast?, Text.isBlank c = false := by
    intro front back hne hback c hc
    rw [List.getLast?_append, List.getLast?_eq_some_getLast hne, Option.some_or,
      ← List.getLast?_eq_some_getLast hne] at hc
    exact hback c hc
  have hname := isName_typeName h.typeName
  cases hinitial : spelled.initial with
  | none =>
      have hsplit : spelled.statement = (spelled.namesText ++
          ((spelled.placed.map Placed.text).getD [] ++
            (spelled.beforeColon ++ ':' :: spelled.afterColon))) ++ spelled.typeName.toList := by
        simp [statement, tailText, typeText, initialText, hinitial]
      rw [hsplit]
      exact hlast _ _ hname.isNameChar.1 fun c hc => hname.noBlank c (List.mem_of_getLast? hc)
  | some initial =>
      have hdefault := (h.initial initial hinitial).default
      have hsplit : spelled.statement = (spelled.namesText ++
          ((spelled.placed.map Placed.text).getD [] ++ (spelled.beforeColon ++
            ':' :: (spelled.afterColon ++ (spelled.typeName.toList ++
              (initial.before ++ ':' :: '=' :: initial.after)))))) ++ initial.default.written := by
        simp [statement, tailText, typeText, initialText, hinitial, Initial.text]
      rw [hsplit]
      refine hlast _ _ (Default.written_ne_nil hdefault) ?_
      cases heq : initial.default with
      | token text =>
          rw [heq] at hdefault
          exact fun c hc => hdefault.2.1 c (List.mem_of_getLast? hc)
      | literal body =>
          intro c hc
          simp [Default.written, List.getLast?_cons] at hc
          subst hc
          decide

/-- A statement begins with its first name. -/
theorem exists_cons_statement (h : spelled.IsWellFormed vendor) :
    ∃ c rest, spelled.statement = c :: rest ∧ Text.isBlank c = false := by
  obtain ⟨c, rest, hcons, hc, -⟩ := h.first.exists_cons
  rw [statement, namesText, hcons]
  exact ⟨c, _, rfl, hc⟩

theorem allBlank_statement (h : spelled.IsWellFormed vendor) :
    Text.allBlank spelled.statement = false := by
  obtain ⟨c, rest, hcons, hc⟩ := exists_cons_statement h
  rw [hcons, Text.allBlank, List.all_cons, hc, Bool.false_and]

theorem trim_statement (h : spelled.IsWellFormed vendor) :
    Text.trim spelled.statement = spelled.statement := by
  refine Text.trim_of_head_getLast ?_ (getLast?_statement h)
  obtain ⟨c, rest, hcons, hc⟩ := exists_cons_statement h
  rw [hcons]
  rintro d ⟨⟩
  exact hc

/-- Without the blanks around it, the piece is the statement. -/
theorem trim_code (h : spelled.IsWellFormed vendor) :
    Text.trim spelled.code = spelled.statement := by
  rw [code, Text.trim_blank_append _ h.indent.isBlank,
    Text.trim_append_blank _ h.beforeSemicolon.isBlank, trim_statement h]

end Spelled

end PlcTags.Source
