import Mathlib.Logic.Relation
import PlcTags.Proofs.Text.Trim
import PlcTags.Source.Extraction

/-!
# Statements that cannot be read

The reader does five things while it reads a line (`Reader.Step`): it takes a piece of the line,
ends a statement, opens a block, closes one, and marks a statement that could be complete.  What
each of these keeps is kept by all lines (`Reader.keeps_readLines`).

A statement that cannot be read declares nothing, but it does not disappear: it is kept with the
line on which it began, and an error is reported at this line.  The reader does both in one place,
so the errors about statements are those of the entries that could not be read, in their order
(`tallies_extract`, `reportsUnread_extract`).

That nothing is taken back is a fact of its own (`Reader.grows_readLines`): a problem that has been
reported stays, and so does the mark that a block has been opened.
-/

namespace PlcTags.Source

/-! ## Entries and their errors -/

namespace Entry

/-- The line at which something was found. -/
def line : Entry → Nat
  | declared declaration => declaration.line
  | unread line _ _ => line

/-- The error about a statement that could not be read. -/
def problem? : Entry → Option Diagnostic
  | declared _ => none
  | unread line text reason =>
    some
      { severity := .error, code := .partialDeclaration, line := some line,
        message := "cannot read declaration '" ++ text ++ "': " ++ reason.message }

end Entry

/-- Whether a problem is an error about a statement. -/
def isStatementError (problem : Diagnostic) : Bool :=
  problem.isError && problem.code == .partialDeclaration

/-- The errors about statements are those of the entries that could not be read, in their
order. -/
def Tallies (entries : List Entry) (diagnostics : List Diagnostic) : Prop :=
  diagnostics.filter isStatementError = entries.filterMap Entry.problem?

/-- There is an error at the line of every statement that could not be read. -/
def ReportsUnread (entries : List Entry) (diagnostics : List Diagnostic) : Prop :=
  ∀ line text reason, .unread line text reason ∈ entries →
    ∃ problem ∈ diagnostics, problem.isError = true ∧ problem.line = some line

variable {entries front back : List Entry} {diagnostics more : List Diagnostic}

theorem tallies_nil : Tallies [] [] :=
  rfl

theorem Tallies.append (h : Tallies front diagnostics) (hmore : Tallies back more) :
    Tallies (front ++ back) (diagnostics ++ more) := by
  rw [Tallies, List.filter_append, List.filterMap_append, h, hmore]

theorem tallies_declared (declarations : List Declaration) :
    Tallies (declarations.map .declared) [] := by
  rw [Tallies, List.filterMap_map]
  exact (List.filterMap_eq_nil_iff.mpr fun _ _ => rfl).symm

/-- A problem that is no error about a statement counts for nothing. -/
theorem Tallies.concat {problem : Diagnostic} (h : Tallies entries diagnostics)
    (hother : isStatementError problem = false) : Tallies entries (diagnostics ++ [problem]) := by
  have hnone : [problem].filter isStatementError = [] := List.filter_cons_of_neg (by simp [hother])
  rw [Tallies, List.filter_append, h, hnone, List.append_nil]

theorem ReportsUnread.mono (h : ReportsUnread entries diagnostics)
    (hmore : diagnostics ⊆ more) : ReportsUnread entries more := by
  intro line text reason hunread
  obtain ⟨problem, hproblem, herror⟩ := h line text reason hunread
  exact ⟨problem, hmore hproblem, herror⟩

theorem Tallies.reportsUnread (h : Tallies entries diagnostics) :
    ReportsUnread entries diagnostics := by
  intro line text reason hunread
  have herror : _ ∈ entries.filterMap Entry.problem? := List.mem_filterMap.mpr ⟨_, hunread, rfl⟩
  rw [← h] at herror
  exact ⟨_, (List.mem_filter.mp herror).1, rfl, rfl⟩

/-! ## Ends of statements -/

/-- Whether a text declares something, and what, has nothing to do with where it stands. -/
theorem exists_readDeclarations (rules : CommentRules) (text : List Char) :
    ∃ outcome : Except Unreadable (List Declaration), ∀ block comment line,
      readDeclarations rules text block comment line = outcome.map (List.map fun declaration =>
        { declaration with description := comment, block, line }) := by
  unfold readDeclarations
  cases Statement.read? text with
  | none => exact ⟨.error .noDeclaration, fun _ _ _ => rfl⟩
  | some statement =>
      dsimp only
      unfold Statement.declarations
      dsimp only
      split
      · exact ⟨.error .noType, fun _ _ _ => rfl⟩
      · cases Statement.names? rules (statement.names.splitOn ',') with
        | error reason => exact ⟨.error reason, fun _ _ _ => rfl⟩
        | ok names =>
            refine ⟨.ok (names.map fun name =>
              { name
                typeName := String.ofList (Text.squeeze statement.typeName)
                address := String.ofList statement.address
                defaultValue := String.ofList (Statement.unquote statement.defaultValue)
                description := ""
                block := ⟨.plain, false⟩
                line := 0 }), fun _ _ _ => congrArg Except.ok ?_⟩
            rw [List.map_map]
            rfl

theorem line_of_readDeclarations {rules : CommentRules} {text : List Char} {block : Block}
    {comment : String} {line : Nat} {declarations : List Declaration}
    (h : readDeclarations rules text block comment line = .ok declarations) :
    ∀ declaration ∈ declarations, declaration.line = line := by
  obtain ⟨outcome, heq⟩ := exists_readDeclarations rules text
  rw [heq] at h
  cases outcome with
  | error reason => cases h
  | ok outcome =>
      obtain rfl := Except.ok.inj h
      intro declaration hmem
      obtain ⟨_, -, rfl⟩ := List.mem_map.mp hmem
      rfl

/-- What is found when a statement ends that began in this line. -/
structure Found (line : Nat) (entries : List Entry) (problems : List Diagnostic) : Prop where
  entryLines : ∀ entry ∈ entries, entry.line = line
  problemLines : ∀ problem ∈ problems, problem.line = some line
  tallies : Tallies entries problems

theorem found_nil (line : Nat) : Found line [] [] :=
  ⟨List.forall_mem_nil _, List.forall_mem_nil _, tallies_nil⟩

theorem found_warning {line : Nat} {problem : Diagnostic} (hline : problem.line = some line)
    (hwarning : isStatementError problem = false) : Found line [] [problem] :=
  ⟨List.forall_mem_nil _, List.forall_mem_singleton.mpr hline,
    tallies_nil.concat hwarning⟩

theorem found_unread (line : Nat) (text : String) (reason : Unreadable) :
    Found line [.unread line text reason] ((Entry.unread line text reason).problem?.toList) :=
  ⟨List.forall_mem_singleton.mpr rfl, List.forall_mem_singleton.mpr rfl, rfl⟩

theorem Found.append {line : Nat} (h : Found line front diagnostics)
    (hmore : Found line back more) : Found line (front ++ back) (diagnostics ++ more) :=
  ⟨List.forall_mem_append.mpr ⟨h.entryLines, hmore.entryLines⟩,
    List.forall_mem_append.mpr ⟨h.problemLines, hmore.problemLines⟩,
    h.tallies.append hmore.tallies⟩

namespace Reader

variable (reader : Reader) (rules : CommentRules)

/-- **A statement that ends** adds its entries and problems, and nothing of it is left. -/
theorem exists_endStatement (block : Block) (unterminated : Bool) :
    ∃ entries problems, Found reader.pendingLine entries problems ∧
      (Text.allBlank reader.pending = true → entries = []) ∧
      reader.endStatement rules block unterminated =
        { reader with
          pending := []
          pendingComment := ""
          entries := reader.entries ++ entries
          diagnostics := reader.diagnostics ++ problems } := by
  unfold Reader.endStatement
  dsimp only
  split
  · exact ⟨[], [], found_nil _, fun _ => rfl, by simp⟩
  · rename_i hfilled
    rw [Text.isEmpty_trim] at hfilled
    -- The warning about a missing semicolon comes first, if there is one.
    obtain ⟨warnings, hwarnings, hwarned⟩ : ∃ warnings, Found reader.pendingLine [] warnings ∧
        (if unterminated then ({ reader with pending := [], pendingComment := "" } :
            Reader).reportUnterminated (Text.trim reader.pending)
          else { reader with pending := [], pendingComment := "" }) =
          { reader with
            pending := []
            pendingComment := ""
            diagnostics := reader.diagnostics ++ warnings } := by
      split
      · exact ⟨_, found_warning rfl rfl, rfl⟩
      · exact ⟨[], found_nil _, by simp⟩
    rw [hwarned]
    split
    · rename_i declarations hread
      have hlines := line_of_readDeclarations hread
      have hfound : Found reader.pendingLine (declarations.map .declared) [] :=
        ⟨List.forall_mem_map.mpr hlines, List.forall_mem_nil _, tallies_declared _⟩
      refine ⟨_, _, hwarnings.append hfound, fun hblank => absurd hblank hfilled, ?_⟩
      simp
    · rename_i reason hread
      have hfound := found_unread reader.pendingLine
        (String.ofList (Text.trim reader.pending)) reason
      refine ⟨_, _, hwarnings.append hfound, fun hblank => absurd hblank hfilled, ?_⟩
      simp [keepUnread, Entry.problem?]

/-- A statement that lacks its semicolon is reported. -/
theorem diagnostics_endStatement_ne_nil (hpending : Text.allBlank reader.pending = false)
    (block : Block) : (reader.endStatement rules block true).diagnostics ≠ [] := by
  unfold Reader.endStatement
  dsimp only
  rw [Text.isEmpty_trim, hpending, if_neg Bool.false_ne_true]
  split
  · exact List.append_ne_nil_of_right_ne_nil _ (List.cons_ne_nil _ _)
  · exact List.append_ne_nil_of_right_ne_nil _ (List.cons_ne_nil _ _)

/-- Otherwise it is read like any other. -/
theorem endStatement_unterminated (hpending : Text.allBlank reader.pending = false)
    (block : Block) : reader.endStatement rules block true =
      (reader.reportUnterminated (Text.trim reader.pending)).endStatement rules block false := by
  unfold Reader.endStatement reportUnterminated report
  dsimp only
  rw [Text.isEmpty_trim, hpending]
  simp only [Bool.false_eq_true, if_false, if_true]

/-- Nothing ends where no statement has begun. -/
theorem endStatement_of_allBlank (hpending : Text.allBlank reader.pending = true) (block : Block)
    (unterminated : Bool) : reader.endStatement rules block unterminated =
      { reader with pending := [], pendingComment := "" } := by
  unfold Reader.endStatement
  dsimp only
  rw [Text.isEmpty_trim, hpending, if_pos rfl]

theorem block_endStatement (block : Block) (unterminated : Bool) :
    (reader.endStatement rules block unterminated).block = reader.block := by
  obtain ⟨_, _, -, -, heq⟩ := exists_endStatement reader rules block unterminated
  rw [heq]

/-! ## What the reader does with a line -/

section

variable {reader : Reader} {rules : CommentRules} {block : Block}

theorem readRest_opening (hblock : reader.block = none) {text rest : List Char}
    (hfind : Block.find? none text = some (block, rest)) (line : Line) :
    reader.readRest rules line text =
      Reader.readRest rules line { reader with block := some block, sawBlock := true } rest := by
  rw [Reader.readRest]
  split
  · split
    · rename_i hnone
      rw [hfind] at hnone
      cases hnone
    · rename_i hsome
      rw [hfind] at hsome
      obtain ⟨rfl, rfl⟩ := Prod.mk.inj (Option.some.inj hsome)
      rfl
  · rename_i hsome
    rw [hblock] at hsome
    cases hsome

theorem readRest_outside (hblock : reader.block = none) {text : List Char}
    (hfind : Block.find? none text = none) (line : Line) :
    reader.readRest rules line text = reader := by
  rw [Reader.readRest]
  split
  · split
    · rfl
    · rename_i hsome
      rw [hfind] at hsome
      cases hsome
  · rename_i hsome
    rw [hblock] at hsome
    cases hsome

/-- Inside of a block, the reader goes on as the next piece ends. -/
theorem readRest_inside (hblock : reader.block = some block) (line : Line) (text : List Char) :
    reader.readRest rules line text =
      match cut rules text with
      | .semicolon piece rest =>
        ((reader.append line piece).endStatement rules block false).readRest rules line rest
      | .endVar piece rest =>
        ((reader.append line piece).endBlock rules block).readRest rules line (afterBlock rest)
      | .lineEnd piece =>
        { reader.append line piece with
          deferred := (Statement.read? (reader.append line piece).pending).isSome } := by
  rw [Reader.readRest]
  split
  · rename_i hnone
    rw [hblock] at hnone
    cases hnone
  · rename_i hsome
    rw [hblock] at hsome
    obtain rfl := Option.some.inj hsome
    split <;> rename_i hcut <;> simp only [hcut]

/-- Inside of a block, a line with code ends a deferred statement, unless it goes on with it. -/
theorem resume_inside (hblock : reader.block = some block) (code : List Char) :
    reader.resume rules code =
      if reader.deferred && !Text.allBlank code then
        if reader.continues code then { reader with deferred := false }
        else ({ reader with deferred := false } : Reader).endStatement rules block true
      else reader := by
  obtain ⟨_, _, _, _, _, _, _, _⟩ := reader
  obtain rfl := hblock
  rfl

theorem resume_outside (hblock : reader.block = none) (code : List Char) :
    reader.resume rules code =
      if reader.deferred && !Text.allBlank code then { reader with deferred := false }
      else reader := by
  obtain ⟨_, _, _, _, _, _, _, _⟩ := reader
  obtain rfl := hblock
  rfl

end

/-- A piece is passed over if it is blank, goes on with the statement that has not ended, or begins
one. -/
theorem append_cases (line : Line) (piece : List Char) :
    reader.append line piece = reader ∨
      ∃ pending since comment, Text.allBlank pending = false ∧
        since = (if Text.allBlank reader.pending then line.number else reader.pendingLine) ∧
        reader.append line piece =
          { reader with pending, pendingLine := since, pendingComment := comment } := by
  unfold Reader.append
  split
  · exact .inl rfl
  · rename_i hpiece
    have htrim : Text.allBlank (Text.trim piece) = false := by
      rw [Text.allBlank_trim]
      exact Bool.eq_false_iff.mpr hpiece
    have hglued : Text.allBlank (reader.pending ++ ' ' :: Text.trim piece) = false := by
      have hback : (Text.trim piece).all Text.isBlank = false := htrim
      rw [Text.allBlank, List.all_append, List.all_cons, hback, Bool.and_false, Bool.and_false]
    refine .inr ?_
    dsimp only
    split <;> split
    · exact ⟨_, _, _, htrim, rfl, rfl⟩
    · exact ⟨_, _, _, htrim, rfl, rfl⟩
    · exact ⟨_, _, _, hglued, rfl, rfl⟩
    · exact ⟨_, _, _, hglued, rfl, rfl⟩

theorem block_append (line : Line) (piece : List Char) :
    (reader.append line piece).block = reader.block := by
  obtain heq | ⟨_, _, _, -, -, heq⟩ := append_cases reader line piece <;> rw [heq]

/-- One of the things that the reader does while it reads a line. -/
inductive Step (rules : CommentRules) (line : Line) (reader : Reader) : Reader → Prop
  | piece {block : Block} (h : reader.block = some block) (text : List Char) :
      Step rules line reader (reader.append line text)
  | statement {block : Block} (h : reader.block = some block) (unterminated : Bool) :
      Step rules line reader (reader.endStatement rules block unterminated)
  | opens (h : reader.block = none) (block : Block) :
      Step rules line reader { reader with block := some block, sawBlock := true }
  | closes (h : Text.allBlank reader.pending = true) :
      Step rules line reader { reader with block := none }
  | defers (deferred : Bool) (h : deferred = true → reader.block ≠ none) :
      Step rules line reader { reader with deferred }

/-- Some steps, one after the other. -/
def Steps (rules : CommentRules) (line : Line) : Reader → Reader → Prop :=
  Relation.ReflTransGen (Step rules line)

variable {reader rules} {line : Line}

theorem steps_endBlock {block : Block} (hblock : reader.block = some block) :
    Steps rules line reader (reader.endBlock rules block) := by
  unfold Reader.endBlock
  dsimp only
  split
  · rename_i hblank
    exact .single (.closes hblank)
  · obtain ⟨_, _, -, -, heq⟩ := exists_endStatement reader rules block true
    have hblank : Text.allBlank (reader.endStatement rules block true).pending = true := by
      rw [heq]
      rfl
    exact .tail (.single (.statement hblock true)) (.closes hblank)

theorem steps_resume (code : List Char) :
    Steps rules line reader (reader.resume rules code) := by
  have hsettled : Step rules line reader { reader with deferred := false } :=
    .defers false fun h => absurd h Bool.false_ne_true
  unfold Reader.resume
  split
  · dsimp only
    split
    · rename_i block hblock
      split
      · exact .single hsettled
      · exact .tail (.single hsettled)
          (@Step.statement rules line { reader with deferred := false } block hblock true)
    · exact .single hsettled
  · exact .refl

theorem steps_readRest (text : List Char) :
    Steps rules line reader (reader.readRest rules line text) := by
  fun_induction Reader.readRest rules line reader text with
  | case1 => exact .refl
  | case2 reader text hblock block rest hfind hlength ih => exact .head (.opens hblock block) ih
  | case3 reader text block hblock piece rest hcut hlength ih =>
      have hpiece : (reader.append line piece).block = some block :=
        (block_append reader line piece).trans hblock
      exact .head (.piece hblock piece) (.head (.statement hpiece false) ih)
  | case4 reader text block hblock piece rest hcut hlength hafter ih =>
      have hpiece : (reader.append line piece).block = some block :=
        (block_append reader line piece).trans hblock
      exact .head (.piece hblock piece) ((steps_endBlock hpiece).trans ih)
  | case5 reader text block hblock piece hcut =>
      have hpiece : (reader.append line piece).block ≠ none := by
        rw [block_append, hblock]
        exact Option.some_ne_none block
      exact .tail (.single (.piece hblock piece)) (.defers _ fun _ => hpiece)

/-- **A line is read in steps.** -/
theorem steps_readLine (line : Line) : Steps rules line reader (reader.readLine rules line) :=
  (steps_resume _).trans (steps_readRest _)

/-- What every step keeps is kept by all of them. -/
theorem Steps.keeps {p : Reader → Prop}
    (hstep : ∀ {before after}, Step rules line before after → p before → p after)
    {next : Reader} (hsteps : Steps rules line reader next) (h : p reader) : p next := by
  induction hsteps with
  | refl => exact h
  | tail _ hlast ih => exact hstep hlast ih

/-- **What every step keeps** is kept from line to line. -/
theorem keeps_readLines (rules : CommentRules) {p : Reader → Prop}
    (hstep : ∀ {line before after}, Step rules line before after → p before → p after)
    (lines : List Line) (h : p reader) : p (lines.foldl (readLine rules) reader) := by
  induction lines generalizing reader with
  | nil => exact h
  | cons line lines ih => exact ih ((steps_readLine line).keeps hstep h)

/-! ## Errors about statements -/

theorem Step.tallies {next : Reader} (hstep : Step rules line reader next)
    (h : Tallies reader.entries reader.diagnostics) : Tallies next.entries next.diagnostics := by
  cases hstep with
  | piece hblock text =>
      obtain heq | ⟨_, _, _, -, -, heq⟩ := append_cases reader line text <;> rwa [heq]
  | @statement block hblock unterminated =>
      obtain ⟨entries, problems, hfound, -, heq⟩ :=
        exists_endStatement reader rules block unterminated
      rw [heq]
      exact h.append hfound.tallies
  | opens => exact h
  | closes => exact h
  | defers => exact h

/-- **At the end of the text** a statement that has not ended is added. -/
theorem exists_finish (reader : Reader) (rules : CommentRules) (lastLine : Nat) (isBlank : Bool) :
    ∃ entries problems, Tallies entries problems ∧
      (∀ entry ∈ entries, entry.line = reader.pendingLine) ∧
      (Text.allBlank reader.pending = true → entries = []) ∧
      (reader.finish rules lastLine isBlank).entries = reader.entries ++ entries ∧
      (reader.finish rules lastLine isBlank).diagnostics = reader.diagnostics ++ problems := by
  unfold Reader.finish
  split
  · rename_i block hblock
    split
    · obtain ⟨entries, problems, hfound, hblank, heq⟩ :=
        exists_endStatement reader rules block true
      rw [heq]
      exact ⟨entries, _, hfound.tallies.concat rfl, hfound.entryLines, hblank, rfl,
        List.append_assoc _ _ _⟩
    · split
      · exact ⟨[], _, tallies_nil.concat rfl, List.forall_mem_nil _, fun _ => rfl,
          (List.append_nil _).symm, rfl⟩
      · rename_i hfilled
        have hfound := found_unread reader.pendingLine
          (String.ofList (Text.trim reader.pending)) .blockEnded
        exact ⟨_, _, hfound.tallies.concat rfl, hfound.entryLines,
          fun hblank => absurd hblank hfilled, rfl, List.append_assoc _ _ _⟩
  · split
    · exact ⟨[], [], tallies_nil, List.forall_mem_nil _, fun _ => rfl,
        (List.append_nil _).symm, (List.append_nil _).symm⟩
    · exact ⟨[], _, tallies_nil.concat rfl, List.forall_mem_nil _, fun _ => rfl,
        (List.append_nil _).symm, rfl⟩

end Reader

/-- **The errors about statements** are those of the entries that could not be read. -/
theorem tallies_extract (vendor : Vendor) (source : String) :
    Tallies (extract vendor source).entries (extract vendor source).diagnostics := by
  have hstart : Tallies ({} : Reader).entries ({} : Reader).diagnostics := tallies_nil
  have hlines := Reader.keeps_readLines vendor.commentRules (fun hstep h => hstep.tallies h)
    (lines vendor.commentRules source) hstart
  obtain ⟨entries, problems, htallies, -, -, hentries, hproblems⟩ := Reader.exists_finish
    ((lines vendor.commentRules source).foldl (Reader.readLine vendor.commentRules) {})
    vendor.commentRules (lastLine (lines vendor.commentRules source)) (Text.isAllBlank source)
  unfold extract
  dsimp only
  rw [hentries, hproblems]
  exact hlines.append htallies

/-- **Nothing in a source is passed over.**  An error is reported at the line of every
statement that could not be read. -/
theorem reportsUnread_extract (vendor : Vendor) (source : String) :
    ReportsUnread (extract vendor source).entries (extract vendor source).diagnostics :=
  (tallies_extract vendor source).reportsUnread

/-! ## What has been said stays -/

namespace Reader

/-- Problems with a line have been added, if anything has, and no block has been forgotten. -/
structure Grows (before after : Reader) : Prop where
  diagnostics : ∃ more, after.diagnostics = before.diagnostics ++ more ∧
    ∀ problem ∈ more, problem.line ≠ none
  sawBlock : before.sawBlock = true → after.sawBlock = true

variable {before middle after : Reader}

theorem grows_of_eq (hdiagnostics : after.diagnostics = before.diagnostics)
    (hsaw : before.sawBlock = true → after.sawBlock = true) : before.Grows after :=
  ⟨⟨[], by rw [hdiagnostics, List.append_nil], List.forall_mem_nil _⟩, hsaw⟩

theorem Grows.trans (hfirst : before.Grows middle) (hsecond : middle.Grows after) :
    before.Grows after := by
  obtain ⟨front, hfront, hfrontLines⟩ := hfirst.diagnostics
  obtain ⟨back, hback, hbackLines⟩ := hsecond.diagnostics
  refine ⟨⟨front ++ back, ?_, List.forall_mem_append.mpr ⟨hfrontLines, hbackLines⟩⟩,
    fun hsaw => hsecond.sawBlock (hfirst.sawBlock hsaw)⟩
  rw [hback, hfront, List.append_assoc]

/-- A problem stays. -/
theorem Grows.diagnostics_ne_nil (h : before.Grows after) (hne : before.diagnostics ≠ []) :
    after.diagnostics ≠ [] := by
  obtain ⟨more, heq, -⟩ := h.diagnostics
  rw [heq]
  exact List.append_ne_nil_of_left_ne_nil hne more

variable (reader : Reader) (rules : CommentRules)

theorem grows_report {diagnostic : Diagnostic} (h : diagnostic.line ≠ none) :
    reader.Grows (reader.report diagnostic) :=
  ⟨⟨[diagnostic], rfl, List.forall_mem_singleton.mpr h⟩, id⟩

theorem grows_keepUnread (text : List Char) (reason : Unreadable) :
    reader.Grows (reader.keepUnread text reason) :=
  ⟨⟨_, rfl, List.forall_mem_singleton.mpr (Option.some_ne_none _)⟩, id⟩

theorem grows_endStatement (block : Block) (unterminated : Bool) :
    reader.Grows (reader.endStatement rules block unterminated) := by
  obtain ⟨_, problems, hfound, -, heq⟩ := exists_endStatement reader rules block unterminated
  rw [heq]
  refine ⟨⟨problems, rfl, fun problem hmem => ?_⟩, id⟩
  rw [hfound.problemLines problem hmem]
  exact Option.some_ne_none _

theorem grows_endBlock (block : Block) : reader.Grows (reader.endBlock rules block) := by
  unfold Reader.endBlock
  dsimp only
  split
  · exact grows_of_eq rfl id
  · exact (grows_endStatement _ rules _ true).trans (grows_of_eq rfl id)

theorem Step.grows {rules : CommentRules} {line : Line} (hstep : Step rules line before after) :
    before.Grows after := by
  cases hstep with
  | piece hblock text =>
      obtain heq | ⟨_, _, _, -, -, heq⟩ := append_cases before line text <;>
        exact grows_of_eq (by rw [heq]) (by rw [heq]; exact id)
  | statement => exact grows_endStatement _ rules _ _
  | opens => exact grows_of_eq rfl fun _ => rfl
  | closes => exact grows_of_eq rfl id
  | defers => exact grows_of_eq rfl id

theorem grows_readRest (line : Line) (text : List Char) :
    reader.Grows (reader.readRest rules line text) :=
  (steps_readRest text).keeps (fun hstep h => h.trans hstep.grows) (grows_of_eq rfl id)

theorem grows_readLine (line : Line) : reader.Grows (reader.readLine rules line) :=
  (steps_readLine line).keeps (fun hstep h => h.trans hstep.grows) (grows_of_eq rfl id)

/-- **Nothing is taken back** from line to line. -/
theorem grows_readLines (lines : List Line) :
    reader.Grows (lines.foldl (readLine rules) reader) :=
  keeps_readLines rules (fun hstep h => h.trans hstep.grows) lines (grows_of_eq rfl id)

/-- At the end of the text a problem without a line is reported only if there was no block. -/
theorem grows_finish (hsaw : reader.sawBlock = true) (lastLine : Nat) (isBlank : Bool) :
    reader.Grows (reader.finish rules lastLine isBlank) := by
  unfold Reader.finish
  split
  · refine Grows.trans ?_ (grows_report _ (Option.some_ne_none _))
    split
    · exact grows_endStatement _ rules _ true
    · split
      · exact grows_of_eq rfl id
      · exact grows_keepUnread _ _ _
  · rw [if_pos (by rw [hsaw, Bool.true_or])]
    exact grows_of_eq rfl id

/-! ## Deferred statements -/

/-- A line decides about a deferred statement, or leaves everything as it is. -/
theorem resume_cases (code : List Char) :
    (∃ deferred, reader.resume rules code = { reader with deferred }) ∨
      ∃ block, reader.block = some block ∧ reader.resume rules code =
        ({ reader with deferred := false } : Reader).endStatement rules block true := by
  unfold Reader.resume
  split
  · dsimp only
    split
    · rename_i block hblock
      split
      · exact .inl ⟨false, rfl⟩
      · exact .inr ⟨block, hblock, rfl⟩
    · exact .inl ⟨false, rfl⟩
  · exact .inl ⟨reader.deferred, rfl⟩

end Reader

end PlcTags.Source
