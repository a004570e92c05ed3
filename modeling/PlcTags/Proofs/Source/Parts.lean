import PlcTags.Proofs.Source.Spelling

/-!
# The parts of a spelled declaration

Read as a statement, a spelled declaration gives its parts back (`read?_statement`), unless
it strays: then another address is read (`read?_statement_of_strays`).  The names are passed
over one by one (`readFrom?_next`), because behind none of them an address and a colon can be
read, and the address then reaches to the colon in front of the type (`head?_addressCuts`).
-/

namespace PlcTags.Source

variable {vendor : Vendor}

namespace Spelled

open Statement

variable {spelled : Spelled} {others rest : List NextName} {names : List Char}

/-! ## What is written, part by part -/

theorem flatMap_text_cons (next : NextName) (rest : List NextName) (tail : List Char) :
    (next :: rest).flatMap NextName.text ++ tail = next.before ++ ',' :: (next.after ++
      (next.name.toList ++ (rest.flatMap NextName.text ++ tail))) := by
  simp [NextName.text]

theorem tailText_of_placed {placed : Placed} (h : spelled.placed = some placed) :
    spelled.tailText = placed.before ++ 'A' :: 'T' :: (placed.after ++
      (placed.address.toList ++ (spelled.beforeColon ++ ':' :: spelled.typeText))) := by
  simp [tailText, h, Placed.text]

theorem tailText_of_none (h : spelled.placed = none) :
    spelled.tailText = spelled.beforeColon ++ ':' :: spelled.typeText := by
  rw [tailText, h]
  rfl

/-- The comma and the blanks around it. -/
theorem isSeparator_comma {next : NextName} (h : next.IsWellFormed) :
    ∀ c ∈ next.before ++ ',' :: next.after, isSeparator c = true ∧ c ≠ ':' :=
  List.forall_mem_append.mpr ⟨h.before.isSeparator,
    List.forall_mem_cons.mpr ⟨by decide, h.after.isSeparator⟩⟩

/-- Behind a separator a word begins. -/
theorem notWord_of_isSeparator {gap : List Char} (hgap : ∀ c ∈ gap, isSeparator c = true ∧ c ≠ ':')
    (hne : gap ≠ []) : (gap.reverse ++ names).head?.any Text.isWordChar = false := by
  obtain ⟨front, last, hlast⟩ := (List.eq_nil_or_concat gap).resolve_left hne
  rw [hlast, List.concat_eq_append] at hgap ⊢
  rw [List.reverse_append]
  exact (spec_of_isSeparator (hgap last (by simp)).1).2.1

/-! ## Types and defaults -/

/-- **The type and the default are found** behind the colon. -/
theorem typeAndDefault?_typeText (h : spelled.IsWellFormed vendor) :
    ∃ typeName, typeAndDefault? spelled.typeText =
        some (typeName, (spelled.initial.map fun initial => initial.default.written).getD []) ∧
      Text.squeeze typeName = spelled.typeName.toList := by
  have hname := isName_typeName h.typeName
  have hcolon : ∀ gap, IsGap gap →
      ':' ∉ spelled.afterColon ++ (spelled.typeName.toList ++ gap) := by
    intro gap hgap
    simp only [List.mem_append, not_or]
    exact ⟨h.afterColon.notMem (by decide), hname.noColon, hgap.notMem (by decide)⟩
  have hne : ∀ gap, spelled.afterColon ++ (spelled.typeName.toList ++ gap) ≠ [] := by
    simp [hname.isNameChar.1]
  -- Blanks around the type are squeezed out, whatever gap follows it.
  have hsqueeze : ∀ gap, IsGap gap →
      Text.squeeze (spelled.afterColon ++ (spelled.typeName.toList ++ gap)) =
        spelled.typeName.toList :=
    fun gap hgap => Text.squeeze_of_word h.afterColon.isBlank hgap.isBlank hname.noBlank
      hname.isNameChar.1
  cases hinitial : spelled.initial with
  | none =>
      have hgap : IsGap [] := List.forall_mem_nil _
      refine ⟨_, ?_, hsqueeze [] hgap⟩
      rw [typeText, initialText, hinitial]
      exact typeAndDefault?_of_notMem (hcolon [] hgap) (hne [])
  | some initial =>
      have hwell := h.initial initial hinitial
      refine ⟨_, ?_, hsqueeze initial.before hwell.before⟩
      have htext : spelled.typeText =
          (spelled.afterColon ++ (spelled.typeName.toList ++ initial.before)) ++
            ':' :: '=' :: (initial.after ++ initial.default.written) := by
        simp [typeText, initialText, hinitial, Initial.text]
      rw [htext, typeAndDefault?_of_default (hcolon _ hwell.before) (hne _),
        Text.trim_blank_append _ hwell.after.isBlank, Default.trim_written hwell.default]
      rfl

/-! ## Addresses -/

/-- **An address reaches to the colon in front of the type**, unless there is no blank up to
the default. -/
theorem head?_addressCuts (h : spelled.IsWellFormed vendor) {address : List Char}
    (hblank : ∀ c ∈ address, Text.isBlank c = false) (hne : address ≠ [])
    (hapart : ¬ (spelled.beforeColon = [] ∧ spelled.afterColon = [] ∧ spelled.initial ≠ none)) :
    (addressCuts (address ++ (spelled.beforeColon ++ ':' :: spelled.typeText))).head? =
      some (address, spelled.typeText) := by
  have hname := isName_typeName h.typeName
  -- A blank in front of the colon ends the address at once; one behind the colon keeps later
  -- colons out of it; and with neither there is no later colon, because there is no default.
  by_cases hbefore : spelled.beforeColon = []
  · rw [hbefore, List.nil_append]
    by_cases hafter : spelled.afterColon = []
    · have hinitial : spelled.initial = none := by
        by_contra hinitial
        exact hapart ⟨hbefore, hafter, hinitial⟩
      refine head?_addressCuts_of_notMem hblank hne ?_
      rw [typeText, initialText, hafter, hinitial]
      simpa using hname.noColon
    · have hhead := h.afterColon.head? hafter (spelled.typeName.toList ++ spelled.initialText)
      obtain ⟨c, tail, hcons, hc, hcolon⟩ := hname.exists_cons
      show (addressCuts (address ++ ':' :: ([] ++ spelled.typeText))).head? =
        some (address, [] ++ spelled.typeText)
      refine head?_addressCuts_of_colon hblank hne (List.forall_mem_nil _) List.not_mem_nil
        hhead ?_
      rw [typeText, hcons, List.cons_append, trimStart_gap _ h.afterColon.isBlank hc]
      simpa using hcolon
  · exact head?_addressCuts_of_gap _ hblank hne h.beforeColon.isBlank hbefore

/-- Up to a default, an address reaches to the colon of the default. -/
theorem head?_addressCuts_initial {initial : Initial} (h : initial.IsWellFormed vendor)
    (hcolon : ':' ∉ initial.default.written) {address : List Char}
    (hblank : ∀ c ∈ address, Text.isBlank c = false) (hne : address ≠ []) :
    (addressCuts (address ++ initial.text)).head? =
      some (address, '=' :: (initial.after ++ initial.default.written)) := by
  have hrest : ':' ∉ '=' :: (initial.after ++ initial.default.written) := by
    simp only [List.mem_cons, List.mem_append, not_or]
    exact ⟨by decide, h.after.notMem (by decide), hcolon⟩
  by_cases hbefore : initial.before = []
  · rw [Initial.text, hbefore, List.nil_append]
    exact head?_addressCuts_of_notMem hblank hne hrest
  · exact head?_addressCuts_of_gap _ hblank hne h.before.isBlank hbefore

/-! ## Names -/

/-- What follows a name begins with a separator. -/
theorem isSeparator_head? (h : spelled.IsWellFormed vendor)
    (hothers : ∀ next ∈ others, next.IsWellFormed) :
    ∀ c ∈ (others.flatMap NextName.text ++ spelled.tailText).head?, isSeparator c = true := by
  have hgap : ∀ gap : List Char, IsGap gap → ∀ d rest, isSeparator d = true →
      ∀ c ∈ (gap ++ d :: rest).head?, isSeparator c = true := by
    intro gap hgap d rest hd
    cases gap with
    | nil =>
        rintro c ⟨⟩
        exact hd
    | cons b gap =>
        rintro c ⟨⟩
        exact (hgap.isSeparator b List.mem_cons_self).1
  cases others with
  | nil =>
      rw [List.flatMap_nil, List.nil_append, tailText]
      cases hplaced : spelled.placed with
      | none => exact hgap _ h.beforeColon _ _ (by decide)
      | some placed =>
          obtain ⟨hbefore, hne⟩ := (h.placed placed hplaced).before
          intro c hc
          rw [Option.map_some, Option.getD_some, Placed.text, List.append_assoc] at hc
          obtain ⟨b, gap, hcons⟩ := List.exists_cons_of_ne_nil hne
          rw [hcons] at hc
          obtain rfl := Option.some.inj hc
          exact (hbefore.isSeparator b (hcons ▸ List.mem_cons_self)).1
  | cons next others =>
      have hnext := hothers next List.mem_cons_self
      rw [List.flatMap_cons, List.append_assoc, NextName.text, List.append_assoc]
      exact hgap _ hnext.before _ _ (by decide)

/-- No address is read from a text without blanks if blanks follow it, and no colon behind them. -/
theorem addressCuts_gap {run gap rest : List Char} {c : Char}
    (hrun : ∀ c ∈ run, Text.isBlank c = false) (hcolon : ':' ∉ run.tail) (hgap : IsGap gap)
    (hne : gap ≠ []) (hc : Text.isBlank c = false) (hnot : c ≠ ':') :
    addressCuts (run ++ (gap ++ c :: rest)) = [] := by
  refine addressCuts_eq_nil hrun (hgap.head? hne _) hcolon ?_
  rw [trimStart_gap _ hgap.isBlank hc]
  simpa using hnot

/-- No address is read from here if there is a blank before the colon of the type. -/
theorem addressCuts_others (h : spelled.IsWellFormed vendor)
    (hothers : ∀ next ∈ others, next.IsWellFormed) {run : List Char}
    (hblank : ∀ c ∈ run, Text.isBlank c = false) (hcolon : ':' ∉ run)
    (hgap : spelled.placed ≠ none ∨ ∃ other ∈ others, other.before ≠ [] ∨ other.after ≠ []) :
    addressCuts (run ++ (others.flatMap NextName.text ++ spelled.tailText)) = [] := by
  have htail : ':' ∉ run.tail := fun hmem => hcolon (List.mem_of_mem_tail hmem)
  induction others generalizing run with
  | nil =>
      cases hplaced : spelled.placed with
      | none => simp [hplaced] at hgap
      | some placed =>
          have hwell := h.placed placed hplaced
          rw [List.flatMap_nil, List.nil_append, tailText_of_placed hplaced]
          exact addressCuts_gap hblank htail hwell.before.1 hwell.before.2 (by decide) (by decide)
  | cons next others ih =>
      obtain ⟨hnext, hothers⟩ := List.forall_mem_cons.mp hothers
      rw [flatMap_text_cons]
      by_cases hbefore : next.before = []
      · rw [hbefore, List.nil_append]
        by_cases hafter : next.after = []
        · -- The name goes on without a blank.
          have hsplit : run ++ ',' :: (next.after ++ (next.name.toList ++
              (others.flatMap NextName.text ++ spelled.tailText))) =
              (run ++ ',' :: next.name.toList) ++
                (others.flatMap NextName.text ++ spelled.tailText) := by
            simp [hafter]
          have hmem : ':' ∉ run ++ ',' :: next.name.toList := by
            simp [hcolon, hnext.name.noColon]
          rw [hsplit]
          refine ih hothers ?_ hmem ?_ fun hin => hmem (List.mem_of_mem_tail hin)
          · exact List.forall_mem_append.mpr
              ⟨hblank, List.forall_mem_cons.mpr ⟨by decide, hnext.name.noBlank⟩⟩
          · simpa [hbefore, hafter] using hgap
        · obtain ⟨c, tail, hcons, hc, hne⟩ := hnext.name.exists_cons
          have hsplit : run ++ ',' :: (next.after ++ (next.name.toList ++
              (others.flatMap NextName.text ++ spelled.tailText))) =
              (run ++ [',']) ++ (next.after ++ (next.name.toList ++
                (others.flatMap NextName.text ++ spelled.tailText))) := by
            simp
          have hrun : ∀ c ∈ run ++ [','], Text.isBlank c = false :=
            List.forall_mem_append.mpr ⟨hblank, List.forall_mem_singleton.mpr (by decide)⟩
          have hmem : ':' ∉ run ++ [','] := by simp [hcolon]
          rw [hsplit, hcons, List.cons_append]
          exact addressCuts_gap hrun (fun hin => hmem (List.mem_of_mem_tail hin)) hnext.after hafter
            hc hne
      · exact addressCuts_gap hblank htail hnext.before hbefore (by decide) (by decide)

/-- What follows blanks behind a name, if blanks follow it. -/
theorem trimStart_behind {blank : Char} {tail : List Char}
    (htext : others.flatMap NextName.text ++ spelled.tailText = blank :: tail)
    (hblank : Text.isBlank blank = true) :
    Text.trimStart tail = Text.trimStart (others.flatMap NextName.text ++ spelled.tailText) := by
  rw [htext]
  exact (List.dropWhile_cons_of_pos hblank).symm

/-- No address is read from the word `AT` of a declaration. -/
theorem addressCuts_tailText_of_placed {placed : Placed} (h : spelled.IsWellFormed vendor)
    (hplaced : spelled.placed = some placed) :
    addressCuts (Text.trimStart spelled.tailText) = [] := by
  have hwell := h.placed placed hplaced
  have hword : ∀ c ∈ ['A', 'T'], Text.isBlank c = false := List.all_iff_forall_prop.mp (by decide)
  obtain ⟨c, rest, hcons, hc, hcolon⟩ := hwell.exists_cons
  rw [tailText_of_placed hplaced, trimStart_gap _ hwell.before.1.isBlank (by decide), hcons]
  exact addressCuts_gap hword (by decide) hwell.after.1 hwell.after.2 hc hcolon

/-- No address is read from the colon of a type that has blanks behind it, or no initial value. -/
theorem addressCuts_tailText_of_none (h : spelled.IsWellFormed vendor)
    (hplaced : spelled.placed = none) (hnot : spelled.afterColon = [] → spelled.initial = none) :
    addressCuts (Text.trimStart spelled.tailText) = [] := by
  have hname := isName_typeName h.typeName
  rw [tailText_of_none hplaced, trimStart_gap _ h.beforeColon.isBlank (by decide)]
  by_cases hafter : spelled.afterColon = []
  · have htype : ':' :: spelled.typeText = (':' :: spelled.typeName.toList) ++ [] := by
      rw [typeText, initialText, hafter, hnot hafter]
      rfl
    rw [htype]
    exact addressCuts_eq_nil (List.forall_mem_cons.mpr ⟨by decide, hname.noBlank⟩)
      (by simp) hname.noColon (by simp)
  · obtain ⟨c, rest, hcons, hc, hcolon⟩ := hname.exists_cons
    have hword : ∀ c ∈ [':'], Text.isBlank c = false :=
      List.forall_mem_singleton.mpr (by decide)
    rw [typeText, hcons]
    exact addressCuts_gap hword (by decide) h.afterColon hafter hc hcolon

/-- **A name is not taken for the word `AT`** if nothing behind it reads as an address. -/
theorem addressCuts_behind (h : spelled.IsWellFormed vendor)
    (hothers : ∀ next ∈ others, next.IsWellFormed) {blank : Char} {tail : List Char}
    (htext : others.flatMap NextName.text ++ spelled.tailText = blank :: tail)
    (hblank : Text.isBlank blank = true)
    (hnot : spelled.placed ≠ none ∨ ¬ spelled.TakesAddress others) :
    addressCuts (Text.trimStart tail) = [] := by
  rw [trimStart_behind htext hblank]
  have hne : ∀ gap d rest, gap ++ d :: rest = blank :: tail → Text.isBlank d = false →
      gap ≠ [] := by
    rintro gap d rest heq hd rfl
    rw [(List.cons.inj heq).1, hblank] at hd
    cases hd
  cases others with
  | nil =>
      rw [List.flatMap_nil, List.nil_append] at htext ⊢
      cases hplaced : spelled.placed with
      | some placed => exact addressCuts_tailText_of_placed h hplaced
      | none =>
          rw [tailText_of_none hplaced] at htext
          have hbefore := hne _ _ _ htext (by decide)
          refine addressCuts_tailText_of_none h hplaced fun hafter => ?_
          by_contra hinitial
          exact hnot.elim (fun hne => hne hplaced) fun hnot => hnot ⟨hbefore, hafter, hinitial⟩
  | cons next rest =>
      obtain ⟨hnext, hrest⟩ := List.forall_mem_cons.mp hothers
      -- Without the blanks in front of it, the comma is the first character of all others.
      have hcomma : ',' :: (next.after ++ (next.name.toList ++
            (rest.flatMap NextName.text ++ spelled.tailText))) =
          [] ++ (({ next with before := [] } :: rest).flatMap NextName.text ++
            spelled.tailText) := by
        simp [NextName.text]
      have hwell : ∀ other ∈ { next with before := [] } :: rest, other.IsWellFormed :=
        List.forall_mem_cons.mpr ⟨⟨List.forall_mem_nil _, hnext.after, hnext.name⟩, hrest⟩
      rw [flatMap_text_cons] at htext ⊢
      have hbefore := hne _ _ _ htext (by decide)
      rw [trimStart_gap _ hnext.before.isBlank (by decide), hcomma]
      refine addressCuts_others h hwell (List.forall_mem_nil _) List.not_mem_nil ?_
      refine hnot.imp_right fun hnot => ?_
      by_contra hall
      simp only [List.mem_cons, exists_eq_or_imp, ne_eq, not_true_eq_false, false_or, not_or,
        not_not, not_exists, not_and] at hall
      exact hnot ⟨hbefore, hall.1, hall.2⟩

theorem readFrom?_next {next : NextName} (h : spelled.IsWellFormed vendor)
    (hnext : next.IsWellFormed) (hrest : ∀ other ∈ rest, other.IsWellFormed)
    (hnot : spelled.placed ≠ none ∨
      ¬ (isAt next.name.toList = true ∧ spelled.TakesAddress rest)) :
    readFrom? names (next.text ++ (rest.flatMap NextName.text ++ spelled.tailText)) =
      readFrom? (next.text.reverse ++ names) (rest.flatMap NextName.text ++ spelled.tailText) := by
  have hsplit : next.text ++ (rest.flatMap NextName.text ++ spelled.tailText) =
      (next.before ++ ',' :: next.after) ++ (next.name.toList ++
        (rest.flatMap NextName.text ++ spelled.tailText)) := by
    simp [NextName.text]
  have hfirst : ∀ text, afterAt? (next.name.toList ++ (rest.flatMap NextName.text ++
      spelled.tailText)) = some text → addressCuts text = [] := by
    intro text hat
    obtain ⟨hword, blank, tail, htext, hblank, rfl⟩ := of_afterAt?_word hnext.name.isNameChar.2
      hnext.name.isNameChar.1 (isSeparator_head? h hrest) hat
    exact addressCuts_behind h hrest htext hblank
      (hnot.imp_right fun hnot htakes => hnot ⟨hword, htakes⟩)
  rw [hsplit, readFrom?_separators (isSeparator_comma hnext),
    readFrom?_word hnext.name.isNameChar.2 (.inr hfirst)]
  simp [NextName.text]

/-- **All names are passed over** if none of them is taken for the word `AT`. -/
theorem readFrom?_others (h : spelled.IsWellFormed vendor)
    (hothers : ∀ next ∈ others, next.IsWellFormed)
    (hnot : spelled.placed ≠ none ∨ ¬ spelled.StraysIn others) :
    readFrom? names (others.flatMap NextName.text ++ spelled.tailText) =
      readFrom? ((others.flatMap NextName.text).reverse ++ names) spelled.tailText := by
  induction others generalizing names with
  | nil => rfl
  | cons next rest ih =>
      obtain ⟨hnext, hrest⟩ := List.forall_mem_cons.mp hothers
      have hthis := hnot.imp_right fun hnot => fun hstrays => hnot (.inl hstrays)
      have hlater := hnot.imp_right fun hnot => fun hstrays => hnot (.inr hstrays)
      rw [List.flatMap_cons, List.append_assoc, readFrom?_next h hnext hrest hthis,
        ih hrest hlater, List.reverse_append, List.append_assoc]

/-! ## Statements -/

theorem readFrom?_first (h : spelled.IsWellFormed vendor) :
    read? spelled.statement = readFrom? spelled.first.toList.reverse
      (spelled.others.flatMap NextName.text ++ spelled.tailText) := by
  rw [read?, statement, namesText, List.append_assoc,
    readFrom?_word h.first.isNameChar.2 (.inl rfl), List.append_nil]

/-- The names have no blanks at their ends. -/
theorem trim_namesText (h : spelled.IsWellFormed vendor) {gap : List Char} (hgap : IsGap gap) :
    Text.trim (spelled.namesText ++ gap) = spelled.namesText := by
  rw [Text.trim_append_blank _ hgap.isBlank]
  refine Text.trim_of_head_getLast ?_ ?_
  · obtain ⟨c, rest, hcons, hc, -⟩ := h.first.exists_cons
    rw [namesText, hcons]
    rintro d ⟨⟩
    exact hc
  · intro c hc
    rcases List.eq_nil_or_concat spelled.others with hnil | ⟨front, last, heq⟩
    · rw [namesText, hnil, List.flatMap_nil, List.append_nil] at hc
      exact h.first.noBlank c (List.mem_of_getLast? hc)
    · rw [List.concat_eq_append] at heq
      have hlast := h.others last (heq ▸ List.mem_append_right _ List.mem_cons_self)
      have hne := hlast.name.isNameChar.1
      rw [namesText, heq, List.flatMap_append, List.flatMap_singleton, NextName.text,
        ← List.cons_append, ← List.append_assoc, ← List.append_assoc, ← List.append_assoc,
        List.getLast?_append, List.getLast?_eq_some_getLast hne, Option.some_or] at hc
      exact hlast.name.noBlank c (Option.some.inj hc ▸ List.getLast_mem hne)

/-- The address is read in front of the type. -/
theorem readFrom?_tailText_of_placed {placed : Placed} (h : spelled.IsWellFormed vendor)
    (hplaced : spelled.placed = some placed) {address after typeName defaultValue : List Char}
    (hcut : (addressCuts (placed.address.toList ++
      (spelled.beforeColon ++ ':' :: spelled.typeText))).head? = some (address, after))
    (htype : typeAndDefault? after = some (typeName, defaultValue)) :
    readFrom? names spelled.tailText = some ⟨Text.trim (names.reverse ++ placed.before), address,
      typeName, defaultValue⟩ := by
  have hwell := h.placed placed hplaced
  obtain ⟨c, rest, hcons, hc, -⟩ := hwell.exists_cons
  have hat : afterAt? ('A' :: 'T' :: (placed.after ++
      (placed.address.toList ++ (spelled.beforeColon ++ ':' :: spelled.typeText)))) =
        some (placed.address.toList ++ (spelled.beforeColon ++ ':' :: spelled.typeText)) := by
    obtain ⟨blank, gap, hgap⟩ := List.exists_cons_of_ne_nil hwell.after.2
    have hblanks := hwell.after.1.isBlank
    rw [hgap] at hblanks ⊢
    obtain ⟨hblank, hblanks⟩ := List.forall_mem_cons.mp hblanks
    have hword : isAt ['A', 'T'] = true := by decide
    rw [hcons]
    exact (afterAt?_of_isAt hword hblank _).trans (congrArg some (trimStart_gap _ hblanks hc))
  have hnames : (placed.before.reverse ++ names).head?.any Text.isWordChar = false :=
    notWord_of_isSeparator hwell.before.1.isSeparator hwell.before.2
  rw [tailText_of_placed hplaced, readFrom?_separators hwell.before.1.isSeparator]
  refine readFrom?_cons_of_some (by simp [hwell.before.2]) ?_
  rw [tail?_of_ne_colon (by decide), addressed?_of_cut hnames hat hcut htype, List.reverse_append,
    List.reverse_reverse]

/-- **A statement gives its parts back**, if it does not stray. -/
theorem read?_statement (h : spelled.IsWellFormed vendor) (hnot : ¬ spelled.Strays) :
    ∃ typeName, read? spelled.statement = some ⟨spelled.namesText, spelled.address.toList, typeName,
        (spelled.initial.map fun initial => initial.default.written).getD []⟩ ∧
      Text.squeeze typeName = spelled.typeName.toList := by
  obtain ⟨typeName, htype, hsqueeze⟩ := typeAndDefault?_typeText h
  refine ⟨typeName, ?_, hsqueeze⟩
  have hothers : spelled.placed ≠ none ∨ ¬ spelled.StraysIn spelled.others := by
    cases hplaced : spelled.placed with
    | none => exact .inr (by rwa [Strays, hplaced] at hnot)
    | some placed => exact .inl nofun
  have hreverse : (spelled.others.flatMap NextName.text).reverse ++ spelled.first.toList.reverse =
      spelled.namesText.reverse := by
    rw [namesText, List.reverse_append]
  rw [readFrom?_first h, readFrom?_others h h.others hothers, hreverse]
  -- The address is either missing or read behind the last name.
  cases hplaced : spelled.placed with
  | none =>
      have hne : spelled.beforeColon.reverse ++ spelled.namesText.reverse ≠ [] := by
        simp [namesText, h.first.isNameChar.1]
      rw [tailText_of_none hplaced, readFrom?_separators h.beforeColon.isSeparator]
      refine readFrom?_cons_of_some hne ?_
      rw [tail?_colon, htype, List.reverse_append, List.reverse_reverse, List.reverse_reverse,
        address, hplaced]
      simp only [Option.map_some, trim_namesText h h.beforeColon]
      rfl
  | some placed =>
      have hwell := h.placed placed hplaced
      obtain ⟨c, rest, hcons, -⟩ := hwell.exists_cons
      have hapart : ¬ (spelled.beforeColon = [] ∧ spelled.afterColon = [] ∧
          spelled.initial ≠ none) := by
        rwa [Strays, hplaced] at hnot
      have hcut := head?_addressCuts h hwell.noBlank (by simp [hcons]) hapart
      rw [readFrom?_tailText_of_placed h hplaced hcut htype, List.reverse_reverse,
        trim_namesText h hwell.before.1, address, hplaced]
      rfl

/-! ## Statements that stray -/

/-- Without a blank up to the default, whatever stands in front of the colon takes the type
with it. -/
theorem exists_addressCuts_of_glued (h : spelled.IsWellFormed vendor)
    (hcolon : ∀ initial ∈ spelled.initial, ':' ∉ initial.default.written) {run : List Char}
    (hblank : ∀ c ∈ run, Text.isBlank c = false)
    (hglued : spelled.afterColon = [] ∧ spelled.initial ≠ none) :
    ∃ after typeName, (addressCuts (run ++ ':' :: spelled.typeText)).head? =
        some (run ++ ':' :: spelled.typeName.toList, after) ∧
      typeAndDefault? after = some (typeName, []) := by
  obtain ⟨hafter, hsome⟩ := hglued
  obtain ⟨initial, hinitial⟩ := Option.ne_none_iff_exists'.mp hsome
  have hwell := h.initial initial hinitial
  have hname := isName_typeName h.typeName
  have hnot : ':' ∉ '=' :: (initial.after ++ initial.default.written) := by
    simp only [List.mem_cons, List.mem_append, not_or]
    exact ⟨by decide, hwell.after.notMem (by decide), hcolon initial hinitial⟩
  have hsplit : run ++ ':' :: spelled.typeText =
      (run ++ ':' :: spelled.typeName.toList) ++ initial.text := by
    simp [typeText, initialText, hafter, hinitial]
  refine ⟨_, _, ?_, typeAndDefault?_of_notMem hnot (List.cons_ne_nil _ _)⟩
  rw [hsplit]
  refine head?_addressCuts_initial hwell (hcolon initial hinitial) ?_ (by simp)
  exact List.forall_mem_append.mpr ⟨hblank, List.forall_mem_cons.mpr ⟨by decide, hname.noBlank⟩⟩

/-- An address, a type and perhaps a default can be read at the front of a text. -/
def ReadsAddress (text : List Char) : Prop :=
  ∃ address after typeName defaultValue, (addressCuts text).head? = some (address, after) ∧
    typeAndDefault? after = some (typeName, defaultValue)

/-- Any run of characters reads as an address in front of the colon and the type. -/
theorem readsAddress_of_run (h : spelled.IsWellFormed vendor)
    (hcolon : ∀ initial ∈ spelled.initial, ':' ∉ initial.default.written) {run : List Char}
    (hblank : ∀ c ∈ run, Text.isBlank c = false) (hne : run ≠ []) :
    ReadsAddress (run ++ (spelled.beforeColon ++ ':' :: spelled.typeText)) := by
  by_cases hglued : spelled.beforeColon = [] ∧ spelled.afterColon = [] ∧ spelled.initial ≠ none
  · obtain ⟨after, typeName, hcut, htype⟩ :=
      exists_addressCuts_of_glued h hcolon hblank hglued.2
    rw [hglued.1, List.nil_append]
    exact ⟨_, after, typeName, [], hcut, htype⟩
  · obtain ⟨typeName, htype, -⟩ := typeAndDefault?_typeText h
    exact ⟨run, spelled.typeText, typeName, _, head?_addressCuts h hblank hne hglued, htype⟩

/-- An address is read behind a name that is taken for the word `AT`, and blanks. -/
theorem readsAddress_of_takesAddress (h : spelled.IsWellFormed vendor)
    (hothers : ∀ next ∈ others, next.IsWellFormed) (hplaced : spelled.placed = none)
    (hcolon : ∀ initial ∈ spelled.initial, ':' ∉ initial.default.written)
    (htakes : spelled.TakesAddress others) :
    ∃ blank tail, others.flatMap NextName.text ++ spelled.tailText = blank :: tail ∧
      Text.isBlank blank = true ∧ ReadsAddress (Text.trimStart tail) := by
  -- The first blank of a gap stands behind the word, and the others are trimmed.
  have hgap : ∀ gap c rest, IsGap gap → gap ≠ [] → Text.isBlank c = false →
      ReadsAddress (c :: rest) → ∃ blank tail, gap ++ c :: rest = blank :: tail ∧
        Text.isBlank blank = true ∧ ReadsAddress (Text.trimStart tail) := by
    intro gap c rest hgap hne hc hreads
    obtain ⟨blank, gap, rfl⟩ := List.exists_cons_of_ne_nil hne
    obtain ⟨hblank, hblanks⟩ := List.forall_mem_cons.mp hgap.isBlank
    refine ⟨blank, gap ++ c :: rest, rfl, hblank, ?_⟩
    rwa [trimStart_gap _ hblanks hc]
  cases others with
  | nil =>
      obtain ⟨hbefore, hglued⟩ := htakes
      obtain ⟨after, typeName, hcut, htype⟩ :=
        exists_addressCuts_of_glued h hcolon (List.forall_mem_nil _) hglued
      rw [List.flatMap_nil, List.nil_append, tailText_of_none hplaced]
      exact hgap _ _ _ h.beforeColon hbefore (by decide) ⟨_, after, typeName, [], hcut, htype⟩
  | cons next rest =>
      obtain ⟨hnext, hrest⟩ := List.forall_mem_cons.mp hothers
      obtain ⟨hbefore, hafter, hglued⟩ := htakes
      have hsplit : (next :: rest).flatMap NextName.text ++ spelled.tailText = next.before ++
          ',' :: ((next.name.toList ++ rest.flatMap NextName.text) ++
            (spelled.beforeColon ++ ':' :: spelled.typeText)) := by
        rw [flatMap_text_cons, hafter, tailText_of_none hplaced]
        simp
      have hblank : ∀ c ∈ ',' :: (next.name.toList ++ rest.flatMap NextName.text),
          Text.isBlank c = false := by
        refine List.forall_mem_cons.mpr ⟨by decide,
          List.forall_mem_append.mpr ⟨hnext.name.noBlank, fun c hc => ?_⟩⟩
        obtain ⟨other, hother, hc⟩ := List.mem_flatMap.mp hc
        rw [NextName.text, (hglued other hother).1, (hglued other hother).2] at hc
        rcases List.mem_cons.mp hc with rfl | hc
        · decide
        · exact (hrest other hother).name.noBlank c hc
      rw [hsplit]
      exact hgap _ _ _ hnext.before hbefore (by decide)
        (readsAddress_of_run h hcolon hblank (List.cons_ne_nil _ _))

/-- **A name that is taken for the word `AT`** ends the names. -/
theorem exists_readFrom?_of_straysIn (h : spelled.IsWellFormed vendor)
    (hothers : ∀ next ∈ others, next.IsWellFormed) (hplaced : spelled.placed = none)
    (hcolon : ∀ initial ∈ spelled.initial, ':' ∉ initial.default.written)
    (hstrays : spelled.StraysIn others) :
    ∃ statement, readFrom? names (others.flatMap NextName.text ++ spelled.tailText) =
      some statement ∧ statement.address ≠ [] := by
  induction others generalizing names with
  | nil => exact absurd hstrays id
  | cons next rest ih =>
      obtain ⟨hnext, hrest⟩ := List.forall_mem_cons.mp hothers
      rw [List.flatMap_cons, List.append_assoc]
      -- Either this name is the word, or a later one is.
      by_cases htakes : isAt next.name.toList = true ∧ spelled.TakesAddress rest
      · obtain ⟨blank, tail, htext, hblank, address, after, typeName, value, hcut, htype⟩ :=
          readsAddress_of_takesAddress h hrest hplaced hcolon htakes.2
        obtain ⟨c, word, hcons, -, hc⟩ := hnext.name.exists_cons
        have hsplit : next.text ++ (rest.flatMap NextName.text ++ spelled.tailText) =
            (next.before ++ ',' :: next.after) ++ (next.name.toList ++ blank :: tail) := by
          rw [htext]
          simp [NextName.text]
        have hnames : ((next.before ++ ',' :: next.after).reverse ++ names).head?.any
            Text.isWordChar = false :=
          notWord_of_isSeparator (isSeparator_comma hnext) (by simp)
        have haddressed :=
          addressed?_of_cut hnames (afterAt?_of_isAt htakes.1 hblank tail) hcut htype
        rw [hsplit, readFrom?_separators (isSeparator_comma hnext), hcons, List.cons_append]
        rw [hcons, List.cons_append] at haddressed
        have hread := tail?_of_ne_colon hc |>.trans haddressed
        refine ⟨_, readFrom?_cons_of_some (by simp) hread, ?_⟩
        exact address_ne_nil_of_addressed? haddressed
      · rw [readFrom?_next h hnext hrest (.inr htakes)]
        exact ih hrest (hstrays.resolve_left htakes)

/-- **Another address is read** from a statement that strays. -/
theorem read?_statement_of_strays (h : spelled.IsWellFormed vendor)
    (hcolon : ∀ initial ∈ spelled.initial, ':' ∉ initial.default.written)
    (hstrays : spelled.Strays) :
    ∃ statement, read? spelled.statement = some statement ∧
      statement.address ≠ spelled.address.toList := by
  rw [readFrom?_first h]
  cases hplaced : spelled.placed with
  | none =>
      rw [Strays, hplaced] at hstrays
      rw [address, hplaced]
      exact exists_readFrom?_of_straysIn h h.others hplaced hcolon hstrays
  | some placed =>
      rw [Strays, hplaced] at hstrays
      have hwell := h.placed placed hplaced
      obtain ⟨after, typeName, hcut, htype⟩ :=
        exists_addressCuts_of_glued h hcolon hwell.noBlank hstrays.2
      rw [← List.nil_append (':' :: spelled.typeText), ← hstrays.1] at hcut
      rw [readFrom?_others h h.others (.inl (by simp [hplaced])),
        readFrom?_tailText_of_placed h hplaced hcut htype, address, hplaced]
      exact ⟨_, rfl, by simp⟩

/-! ## Declarations -/

theorem name?_of_isName {rules : CommentRules} {name : String} (h : IsName name) :
    name? rules name.toList = some name.toList := by
  obtain ⟨c, rest, hcons, -⟩ := h.exists_cons
  have hquote : (name.toList.head? == some '"') = false := by
    have hc : c ≠ '"' :=
      ne_of_isNameChar (h.isNameChar.2 c (hcons ▸ List.mem_cons_self)) (by decide)
    simpa [hcons] using hc
  rw [name?, hquote]
  simp [h.1]

/-- A piece between commas is a name with blanks around it. -/
theorem names?_cons {rules : CommentRules} {gap back : List Char} {first : String}
    (hgap : IsGap gap) (hfirst : IsName first) (hback : IsGap back) (pieces : List (List Char)) :
    names? rules ((gap ++ (first.toList ++ back)) :: pieces) =
      (first :: ·) <$> names? rules pieces := by
  have htrim : Text.trim (gap ++ (first.toList ++ back)) = first.toList := by
    rw [Text.trim_blank_append _ hgap.isBlank, Text.trim_append_blank _ hback.isBlank,
      Text.trim_of_forall_not_blank hfirst.noBlank]
  rw [names?, htrim, name?_of_isName hfirst]
  simp only [String.ofList_toList]

theorem ne_comma_of_mem {gap back : List Char} {first : String} (hgap : IsGap gap)
    (hfirst : IsName first) (hback : IsGap back) :
    ∀ c ∈ gap ++ (first.toList ++ back), (c == ',') = false := by
  intro c hc
  refine beq_false_of_ne ?_
  rintro rfl
  simp only [List.mem_append] at hc
  rcases hc with hc | hc | hc
  · exact hgap.notMem (by decide) hc
  · exact ne_of_isNameChar (hfirst.isNameChar.2 _ hc) (by decide) rfl
  · exact hback.notMem (by decide) hc

/-- **The names are found** between the commas. -/
theorem names?_splitOn {rules : CommentRules} {gap : List Char} {first : String} (hgap : IsGap gap)
    (hfirst : IsName first) (hothers : ∀ next ∈ others, next.IsWellFormed) :
    names? rules ((gap ++ (first.toList ++ others.flatMap NextName.text)).splitOn ',') =
      .ok (first :: others.map NextName.name) := by
  induction others generalizing gap first with
  | nil =>
      have hnil : IsGap [] := List.forall_mem_nil _
      rw [List.flatMap_nil, List.splitOn,
        List.splitOnP_eq_singleton (ne_comma_of_mem hgap hfirst hnil),
        names?_cons hgap hfirst hnil]
      rfl
  | cons next rest ih =>
      obtain ⟨hnext, hrest⟩ := List.forall_mem_cons.mp hothers
      have hsplit : gap ++ (first.toList ++ (next :: rest).flatMap NextName.text) =
          (gap ++ (first.toList ++ next.before)) ++
            ',' :: (next.after ++ (next.name.toList ++ rest.flatMap NextName.text)) := by
        simp [NextName.text]
      have hlater := ih hnext.after hnext.name hrest
      rw [List.splitOn] at hlater
      rw [hsplit, List.splitOn, List.splitOnP_append_cons_of_forall_mem
        (ne_comma_of_mem hgap hfirst hnext.before) _ (by decide),
        names?_cons hgap hfirst hnext.before, hlater]
      rfl

/-- **The variables of a declaration** are those that are meant, if it does not stray. -/
theorem readDeclarations_statement (h : spelled.IsWellFormed vendor) (hnot : ¬ spelled.Strays)
    (block : Block) (description : String) (line : Nat) :
    readDeclarations vendor.commentRules spelled.statement block description line =
      .ok (spelled.declarations block description line) := by
  obtain ⟨typeName, hread, hsqueeze⟩ := read?_statement h hnot
  have hnames : names? vendor.commentRules (spelled.namesText.splitOn ',') = .ok spelled.names :=
    names?_splitOn (List.forall_mem_nil _) h.first h.others
  have htype : spelled.typeName.toList.isEmpty = false :=
    List.isEmpty_eq_false_iff.mpr (isName_typeName h.typeName).isNameChar.1
  have hdefault : String.ofList (unquote ((spelled.initial.map fun initial =>
      initial.default.written).getD [])) = spelled.defaultValue := by
    rw [defaultValue]
    cases hinitial : spelled.initial with
    | none => rfl
    | some initial => exact Default.unquote_written (h.initial initial hinitial).default
  rw [readDeclarations, hread]
  simp only [Statement.declarations, hsqueeze, htype, hnames, hdefault, String.ofList_toList]
  rfl

/-- **Other variables are declared** by a declaration that strays, or none. -/
theorem readDeclarations_statement_ne (h : spelled.IsWellFormed vendor)
    (hcolon : ∀ initial ∈ spelled.initial, ':' ∉ initial.default.written)
    (hstrays : spelled.Strays) (block : Block) (description : String) (line : Nat) :
    readDeclarations vendor.commentRules spelled.statement block description line ≠
      .ok (spelled.declarations block description line) := by
  obtain ⟨statement, hread, haddress⟩ := read?_statement_of_strays h hcolon hstrays
  rw [readDeclarations, hread]
  intro heq
  dsimp only at heq
  unfold Statement.declarations at heq
  dsimp only at heq
  split at heq
  · cases heq
  · obtain ⟨names, -, heq⟩ := exists_of_bind_eq_ok heq
    have heq := Except.ok.inj heq
    rcases names with - | ⟨name, names⟩
    · cases heq
    · have hfirst : String.ofList statement.address = spelled.address :=
        congrArg Declaration.address (List.cons.inj heq).1
      exact haddress (by rw [← hfirst, String.toList_ofList])

end Spelled

end PlcTags.Source
