import PlcTags.Proofs.Source.Reading

/-!
# Blanks between the parts of a declaration

How many blanks stand between the parts of a declaration makes no difference to what is
extracted from a source, unless a declaration strays, and then it does (`extract_eq_iff`).
Most spellings do not stray: one that does has either an address with no blank up to the
default, or a name that is spelled `AT`.

What is found in one line is told from what is found in the others by the number of the line,
so that the extraction is what is meant only if this is so line by line
(`flatMap_entries_eq_iff`).
-/

namespace PlcTags.Source

variable {vendor : Vendor}

/-! ## The lines of what is found -/

namespace Numbered

theorem line_of_mem_entries {found : Numbered Noted} :
    ∀ entry ∈ found.entries vendor, entry.line = found.number := by
  unfold entries
  split
  · rename_i declarations houtcome
    intro entry hentry
    obtain ⟨declaration, hmem, rfl⟩ := List.mem_map.mp hentry
    exact line_of_readDeclarations houtcome declaration hmem
  · exact List.forall_mem_singleton.mpr rfl

theorem line_of_mem_declarations {found : Numbered Noted} :
    ∀ entry ∈ found.declarations.map Entry.declared, entry.line = found.number := by
  intro entry hentry
  obtain ⟨declaration, hmem, rfl⟩ := List.mem_map.mp hentry
  obtain ⟨name, -, rfl⟩ := List.mem_map.mp hmem
  rfl

/-- **What is meant is found in a line only if it does not stray.** -/
theorem entries_iff_not_strays {found : Numbered Noted} (h : found.line.IsWellFormed vendor)
    (hcolon : ∀ initial ∈ found.line.spelled.initial, ':' ∉ initial.default.written) :
    (found.entries vendor = found.declarations.map .declared ∧ found.problems vendor = []) ↔
      ¬ found.line.spelled.Strays := by
  refine ⟨fun ⟨hentries, hproblems⟩ hstrays => ?_, entries_of_not_strays h⟩
  have hne : found.outcome vendor ≠ .ok found.declarations :=
    Spelled.readDeclarations_statement_ne h.spelled hcolon hstrays _ _ _
  unfold entries at hentries
  unfold problems at hproblems
  cases houtcome : found.outcome vendor with
  | error reason =>
      rw [houtcome] at hproblems
      cases hproblems
  | ok declarations =>
      rw [houtcome] at hentries hne
      have hinj : Function.Injective Entry.declared := fun _ _ heq => Entry.declared.inj heq
      exact hne (congrArg _ (List.map_injective_iff.mpr hinj hentries))

end Numbered

/-! ## The order of the lines -/

variable {α : Type}

variable {height : α → Nat}

theorem le_behind (height : α → Nat) (number : Nat) (lines : List α) :
    number ≤ behind height number lines := by
  induction lines generalizing number with
  | nil => exact Nat.le_refl _
  | cons line lines ih => exact (Nat.le_add_right _ _).trans (ih _)

theorem number_of_mem_spreadLines (hheight : ∀ line, 0 < height line) {block : Block}
    {number : Nat} {lines : List α} {found : Numbered α}
    (h : found ∈ spreadLines height block number lines) :
    number ≤ found.number ∧ found.number < behind height number lines := by
  induction lines generalizing number with
  | nil => cases h
  | cons line lines ih =>
      have hline := hheight line
      rcases List.mem_cons.mp h with rfl | h
      · have hlater := le_behind height (number + height line) lines
        rw [behind]
        dsimp only
        omega
      · obtain ⟨hlower, hupper⟩ := ih h
        exact ⟨Nat.le_trans (Nat.le_add_right _ _) hlower, hupper⟩

theorem number_lt_of_mem_spread (hheight : ∀ line, 0 < height line) {number : Nat}
    {parts : List (Section α)} {found : Numbered α} (h : found ∈ spread height number parts) :
    number < found.number := by
  induction parts generalizing number with
  | nil => cases h
  | cons part parts ih =>
      rcases List.mem_append.mp h with h | h
      · exact (number_of_mem_spreadLines hheight h).1
      · have hlater := ih h
        have hbehind := le_behind height (number + 1) part.lines
        omega

theorem pairwise_spreadLines (hheight : ∀ line, 0 < height line) (block : Block) (number : Nat)
    (lines : List α) :
    (spreadLines height block number lines).Pairwise
      fun first later => first.number < later.number := by
  induction lines generalizing number with
  | nil => exact .nil
  | cons line lines ih =>
      refine .cons (fun later hlater => ?_) (ih _)
      have hline := hheight line
      have hlower := (number_of_mem_spreadLines hheight hlater).1
      dsimp only
      omega

/-- **The lines are numbered in their order.** -/
theorem pairwise_spread (hheight : ∀ line, 0 < height line) (number : Nat)
    (parts : List (Section α)) :
    (spread height number parts).Pairwise fun first later => first.number < later.number := by
  induction parts generalizing number with
  | nil => exact .nil
  | cons part parts ih =>
      refine List.pairwise_append.mpr ⟨pairwise_spreadLines hheight _ _ _, ih _, ?_⟩
      intro first hfirst later hlater
      have hupper := (number_of_mem_spreadLines hheight hfirst).2
      have hlower := number_lt_of_mem_spread hheight hlater
      omega

theorem pairwise_numbered (number : Nat) (parts : List (Section α)) :
    (numbered number parts).Pairwise fun first later => first.number < later.number := by
  rw [numbered_eq_spread]
  exact pairwise_spread (fun _ => Nat.one_pos) number parts

/-! ## Line by line -/

/-- What belongs to one line is told from what belongs to later ones. -/
theorem append_inj_of_line {number : Nat} {front front' back back' : List Entry}
    (hfront : ∀ entry ∈ front, entry.line = number)
    (hfront' : ∀ entry ∈ front', entry.line = number)
    (hback : ∀ entry ∈ back, entry.line ≠ number)
    (hback' : ∀ entry ∈ back', entry.line ≠ number)
    (h : front ++ back = front' ++ back') : front = front' ∧ back = back' := by
  -- What belongs to the line is what a filter for its number keeps.
  have hkeep : ∀ front back : List Entry, (∀ entry ∈ front, entry.line = number) →
      (∀ entry ∈ back, entry.line ≠ number) →
      (front ++ back).filter (fun entry => entry.line == number) = front := by
    intro front back hfront hback
    rw [List.filter_append, List.filter_eq_self.mpr fun entry hentry =>
      beq_iff_eq.mpr (hfront entry hentry), List.filter_eq_nil_iff.mpr fun entry hentry heq =>
      hback entry hentry (beq_iff_eq.mp heq), List.append_nil]
  have hsame : front = front' := by
    rw [← hkeep front back hfront hback, h, hkeep front' back' hfront' hback']
  subst hsame
  exact ⟨rfl, List.append_cancel_left h⟩

/-- **What is found is what is meant** if this is so in every line. -/
theorem flatMap_entries_eq_iff {founds : List (Numbered Noted)}
    (hsorted : founds.Pairwise fun first later => first.number < later.number) :
    founds.flatMap (Numbered.entries vendor) =
        (founds.flatMap Numbered.declarations).map .declared ↔
      ∀ found ∈ founds, found.entries vendor = found.declarations.map .declared := by
  rw [List.map_flatMap]
  induction founds with
  | nil => simp
  | cons found founds ih =>
      obtain ⟨hfirst, hsorted⟩ := List.pairwise_cons.mp hsorted
      rw [List.forall_mem_cons, ← ih hsorted, List.flatMap_cons, List.flatMap_cons]
      refine ⟨fun h => ?_, fun ⟨hthis, hrest⟩ => by rw [hthis, hrest]⟩
      -- Later lines have other numbers, whatever is found in them or meant by them.
      have hlater : ∀ g : Numbered Noted → List Entry,
          (∀ other, ∀ entry ∈ g other, entry.line = other.number) →
          ∀ entry ∈ founds.flatMap g, entry.line ≠ found.number := by
        intro g hg entry hentry
        obtain ⟨other, hother, hentry⟩ := List.mem_flatMap.mp hentry
        rw [hg other entry hentry]
        exact Nat.ne_of_gt (hfirst other hother)
      exact append_inj_of_line Numbered.line_of_mem_entries Numbered.line_of_mem_declarations
        (hlater _ fun _ => Numbered.line_of_mem_entries)
        (hlater _ fun _ => Numbered.line_of_mem_declarations) h

/-- **What is meant is found**, and nothing is reported, exactly if no declaration strays. -/
theorem flatMap_entries_iff_not_strays {founds : List (Numbered Noted)}
    (hsorted : founds.Pairwise fun first later => first.number < later.number)
    (h : ∀ found ∈ founds, found.line.IsWellFormed vendor)
    (hcolon : ∀ found ∈ founds, ∀ initial ∈ found.line.spelled.initial,
      ':' ∉ initial.default.written) :
    (founds.flatMap (Numbered.entries vendor) =
          (founds.flatMap Numbered.declarations).map .declared ∧
        founds.flatMap (Numbered.problems vendor) = []) ↔
      ∀ found ∈ founds, ¬ found.line.spelled.Strays := by
  have hfound : (∀ found ∈ founds, found.entries vendor = found.declarations.map .declared ∧
      found.problems vendor = []) ↔ ∀ found ∈ founds, ¬ found.line.spelled.Strays :=
    forall₂_congr fun found hmem =>
      Numbered.entries_iff_not_strays (h found hmem) (hcolon found hmem)
  rw [flatMap_entries_eq_iff hsorted, List.flatMap_eq_nil_iff, ← hfound]
  exact forall₂_and.symm

/-! ## Sources -/

/-- **Blanks do not matter**: the variables of a source are those that are meant, whatever
blanks stand between the parts of its declarations, exactly if none of them strays. -/
theorem extract_eq_iff {parts : List (Section Noted)} {source : String}
    (h : ∀ part ∈ parts, ∀ noted ∈ part.lines, noted.IsWellFormed vendor)
    (hcolon : ∀ part ∈ parts, ∀ noted ∈ part.lines, ∀ initial ∈ noted.spelled.initial,
      ':' ∉ initial.default.written)
    (hsource : IsSource source (sourceText Noted.text parts)) :
    extract vendor source =
        ⟨vendor, ((numbered 1 parts).flatMap Numbered.declarations).map .declared, []⟩ ↔
      ∀ part ∈ parts, ∀ noted ∈ part.lines, ¬ noted.spelled.Strays := by
  have hlines := flatMap_entries_iff_not_strays (pairwise_numbered 1 parts)
    (forall_numbered.mpr h) (forall_numbered.mpr hcolon)
  rw [extract_of_isSource h hsource, Extraction.mk.injEq, ← forall_numbered, ← hlines]
  simp only [true_and]

/-! ## A declaration in two spellings -/

/-- A declaration with these blanks in front of its colon, and no others where none is needed. -/
def startSections (gap : List Char) : List (Section Noted) :=
  [⟨⟨.plain, false⟩, [⟨⟨[], "Start", [], some ⟨[' '], [' '], "%IX0.0"⟩, gap, [], "BOOL",
    some ⟨[], [], .token "TRUE"⟩, [], []⟩, none⟩]⟩]

def startSource (gap : String) : String :=
  "VAR\nStart AT %IX0.0" ++ gap ++ ":BOOL:=TRUE;\nEND_VAR"

/-- What is meant. -/
def startExtraction : Extraction :=
  ⟨.beckhoff, [.declared ⟨"Start", "BOOL", "%IX0.0", "TRUE", "", ⟨.plain, false⟩, 2⟩], []⟩

/-- One blank decides. -/
theorem extract_startSource :
    extract .beckhoff (startSource " ") = startExtraction ∧
      extract .beckhoff (startSource "") ≠ startExtraction := by
  have hapart : ∀ part ∈ startSections [' '], ∀ noted ∈ part.lines,
      noted.IsWellFormed .beckhoff := by
    decide
  have hglued : ∀ part ∈ startSections [], ∀ noted ∈ part.lines,
      noted.IsWellFormed .beckhoff := by
    decide
  have hapartSource : IsSource (startSource " ") (sourceText Noted.text (startSections [' '])) :=
    .inr (by decide +kernel)
  have hgluedSource : IsSource (startSource "") (sourceText Noted.text (startSections [])) :=
    .inr (by decide +kernel)
  have hstrays : ¬ ∀ part ∈ startSections [], ∀ noted ∈ part.lines, ¬ noted.spelled.Strays := by
    decide
  exact ⟨(extract_eq_iff hapart (by decide) hapartSource).mpr (by decide),
    fun heq => hstrays ((extract_eq_iff hglued (by decide) hgluedSource).mp heq)⟩

/-- Without a blank up to the default, the type goes into the address, and no problem is
reported. -/
theorem extract_startSource_glued :
    extract .beckhoff (startSource "") =
      ⟨.beckhoff, [.declared ⟨"Start", "=TRUE", "%IX0.0:BOOL", "", "", ⟨.plain, false⟩, 2⟩],
        []⟩ := by
  have hparts : ∀ part ∈ startSections [], ∀ noted ∈ part.lines,
      noted.IsWellFormed .beckhoff := by
    decide
  have hsource : IsSource (startSource "") (sourceText Noted.text (startSections [])) :=
    .inr (by decide +kernel)
  rw [extract_of_isSource hparts hsource]
  rfl

end PlcTags.Source
