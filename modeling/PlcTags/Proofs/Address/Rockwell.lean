import PlcTags.Address.Rockwell
import PlcTags.Proofs.Address.Numeral

/-!
# The grammar of Rockwell addresses

`Rockwell.Spells` is the grammar: which texts spell which element, and what is said of the
element.  What differs between the kinds of data files is a table (`Rockwell.fileRule`).
Reading finds exactly what is spelled (`read_iff`).

Which elements the grammar can name is `Rockwell.IsValid`: the ranges of the
numbers, and for parts of file elements the names that the kind of file has.  Nothing else
is spelled (`Spells.isValid`), and the canonical spelling of a valid element is one of its
spellings (`spells_render`), in which word 0 is not written.
-/

namespace PlcTags.Address

open Text

/-! ## Elements of the grammar -/

/-- A part that elements of this kind of file have. -/
def Part.FitsKind (kind : FileKind) : Part → Prop
  | .whole => True
  | .bit index => ∃ last, kind.lastBit? = some last ∧ index ≤ last
  | .flag name => name ∈ kind.flags
  | .member name => name ∈ kind.members

namespace Rockwell

/-- The elements that the grammar can name. -/
def IsValid : Rockwell → Prop
  | wired _ slot word bit => slot ≤ 30 ∧ word ≤ 255 ∧ ∀ index ∈ bit, index ≤ 15
  | file kind number element part =>
      3 ≤ number ∧ number ≤ 255 ∧ element ≤ 255 ∧ part.FitsKind kind

/-! ## The grammar -/

/-- What the grammar says of a kind of data file. -/
structure FileRule where
  letters : String
  /-- The greatest bit of an element, where elements are words. -/
  lastBit : Option Nat
  /-- The status bits of an element. -/
  flags : List String
  /-- The words inside an element. -/
  members : List String
  /-- The types that a whole element can hold. -/
  whole : List DataType

/-- The kinds of data files. -/
def fileRule : FileKind → FileRule
  | .binary => ⟨"B", some 15, [], [], [.int16]⟩
  | .integer => ⟨"N", some 15, [], [], [.int16]⟩
  | .long => ⟨"L", some 31, [], [], [.int32]⟩
  | .float => ⟨"F", none, [], [], [.real]⟩
  | .string => ⟨"ST", none, [], [], [.string]⟩
  | .timer => ⟨"T", none, ["EN", "TT", "DN"], ["PRE", "ACC"], [.timer]⟩
  | .counter => ⟨"C", none, ["CU", "CD", "DN", "OV", "UN"], ["PRE", "ACC"], [.counter]⟩
  | .control =>
    ⟨"R", none, ["EN", "EU", "DN", "EM", "ER", "UL", "IN", "FD"], ["LEN", "POS"], []⟩

/-- What follows the element number: the part of the element that it names, and the types
that the part can hold. -/
inductive SpellsPart (rule : FileRule) : List Char → Part → List DataType → Prop
  | whole : SpellsPart rule [] .whole rule.whole
  | bit {last index : Nat} {digits : List Char} (hlast : rule.lastBit = some last)
      (hindex : Writes 2 0 last digits index) :
      SpellsPart rule ('/' :: digits) (.bit index) [.bool]
  | flag {name : String} (hname : name ∈ rule.flags) :
      SpellsPart rule ('/' :: name.toList) (.flag name.toList) [.bool]
  | member {name : String} (hname : name ∈ rule.members) :
      SpellsPart rule ('.' :: name.toList) (.member name.toList) [.int16]

/-- What follows the colon of an input or output: the slot, the word, which is 0 where it
is not written, and the bit. -/
inductive SpellsWord : List Char → Nat → Nat → Option Nat → Prop
  | mk {slotText wordText bitText : List Char} {slot : Nat} {word bit : Option Nat}
      (hslot : Writes 3 0 30 slotText slot) (hword : WritesAfter '.' 3 255 wordText word)
      (hbit : WritesAfter '/' 2 15 bitText bit) :
      SpellsWord (slotText ++ (wordText ++ bitText)) slot (word.getD 0) bit

/-- A text in upper case spells an element: the area of the element, and the types that it
can hold. -/
inductive Spells : List Char → Rockwell → Area → List DataType → Prop
  | input {text : List Char} {slot word : Nat} {bit : Option Nat}
      (h : SpellsWord text slot word bit) :
      Spells ('I' :: ':' :: text) (.wired .input slot word bit) .input
        (if bit.isSome then [.bool] else [.int16])
  | output {text : List Char} {slot word : Nat} {bit : Option Nat}
      (h : SpellsWord text slot word bit) :
      Spells ('O' :: ':' :: text) (.wired .output slot word bit) .output
        (if bit.isSome then [.bool] else [.int16])
  | file {kind : FileKind} {numberText elementText partText : List Char} {number element : Nat}
      {part : Part} {types : List DataType} (hnumber : Writes 3 3 255 numberText number)
      (helement : Writes 3 0 255 elementText element)
      (hpart : SpellsPart (fileRule kind) partText part types) :
      Spells ((fileRule kind).letters.toList ++
          (numberText ++ ':' :: (elementText ++ partText)))
        (.file kind number element part) .memory types

variable {text rest : List Char} {spelling : Spelling} {element : Rockwell} {area : Area}
  {types : List DataType} {kind : FileKind} {part : Part} {side : Side}

/-! ### What is said of an element -/

theorem letters_eq (kind : FileKind) : kind.letters = (fileRule kind).letters.toList := by
  cases kind <;> rfl

theorem lastBit?_eq (kind : FileKind) : kind.lastBit? = (fileRule kind).lastBit := by
  cases kind <;> rfl

theorem mem_flags_iff : text ∈ kind.flags ↔ ∃ name ∈ (fileRule kind).flags, name.toList = text := by
  have hflags : kind.flags = (fileRule kind).flags.map String.toList := by
    cases kind <;> rfl
  rw [hflags, List.mem_map]

theorem mem_members_iff :
    text ∈ kind.members ↔ ∃ name ∈ (fileRule kind).members, name.toList = text := by
  have hmembers : kind.members = (fileRule kind).members.map String.toList := by
    cases kind <;> rfl
  rw [hmembers, List.mem_map]

theorem accepts_eq (kind : FileKind) : kind.accepts = (fileRule kind).whole := by
  cases kind <;> rfl

theorem accepts_wired (side : Side) (slot word : Nat) (bit : Option Nat) :
    accepts (.wired side slot word bit) = if bit.isSome then [.bool] else [.int16] := by
  cases bit <;> rfl

/-! ## What is read is spelled -/

theorem writesAfter_of_readBit? {digits : Option Digits} {index : Option Nat}
    (h : Spelling.readBit? text = some digits) (hvalue : bounded? .bit 0 15 digits = .ok index) :
    WritesAfter '/' 2 15 text index := by
  unfold Spelling.readBit? at h
  split at h
  · obtain rfl := Option.some.inj h
    obtain rfl := Except.ok.inj hvalue
    exact .nothing
  · obtain ⟨digits, hdigits, rfl⟩ := Option.map_eq_some_iff.mp h
    obtain ⟨value, hbounded, rfl⟩ := exists_of_map_eq_ok hvalue
    obtain ⟨rfl, hlength⟩ := eq_of_allDigits hdigits
    exact .number (writes_of_bounded hlength hbounded)
  · cases h

/-- The values of an input or output. -/
theorem exists_of_resolve_wired {slotText : Digits} {wordText bitText : Option Digits}
    (h : (Spelling.wired side slotText wordText bitText).resolve = .ok element) :
    ∃ slot word bit, bounded .slot 0 30 slotText = .ok slot ∧
      bounded? .word 0 255 wordText = .ok word ∧ bounded? .bit 0 15 bitText = .ok bit ∧
      element = .wired side slot (word.getD 0) bit := by
  unfold Spelling.resolve at h
  obtain ⟨slot, hslot, h⟩ := exists_of_bind_eq_ok h
  obtain ⟨word, hword, h⟩ := exists_of_bind_eq_ok h
  obtain ⟨bit, hbit, h⟩ := exists_of_bind_eq_ok h
  exact ⟨slot, word, bit, hslot, hword, hbit, (Except.ok.inj h).symm⟩

theorem spellsWord_of_readWired? (h : Spelling.readWired? side text = some spelling)
    (hresolve : spelling.resolve = .ok element) :
    ∃ slot word bit, SpellsWord text slot word bit ∧ element = .wired side slot word bit := by
  obtain ⟨⟨slotText, rest⟩, hslotText, hrest⟩ := Option.bind_eq_some_iff.mp h
  obtain ⟨rfl, hslotLength⟩ := eq_append_of_digitsUpTo hslotText
  dsimp only at hrest
  split at hrest
  · obtain ⟨⟨wordText, rest⟩, hwordText, hrest⟩ := Option.bind_eq_some_iff.mp hrest
    obtain ⟨bitText, hbitText, hrest⟩ := Option.bind_eq_some_iff.mp hrest
    obtain rfl := Option.some.inj hrest
    obtain ⟨slot, word, bit, hslot, hword, hbit, rfl⟩ := exists_of_resolve_wired hresolve
    obtain ⟨word, hbounded, rfl⟩ := exists_of_map_eq_ok hword
    obtain ⟨heq, hwordLength⟩ := eq_append_of_digitsUpTo hwordText
    rw [heq]
    exact ⟨slot, word, bit, .mk (writes_of_bounded hslotLength hslot)
      (.number (writes_of_bounded hwordLength hbounded)) (writesAfter_of_readBit? hbitText hbit),
      rfl⟩
  · obtain ⟨bitText, hbitText, hrest⟩ := Option.bind_eq_some_iff.mp hrest
    obtain rfl := Option.some.inj hrest
    obtain ⟨slot, word, bit, hslot, hword, hbit, rfl⟩ := exists_of_resolve_wired hresolve
    obtain rfl := Except.ok.inj hword
    exact ⟨slot, 0, bit, .mk (writes_of_bounded hslotLength hslot) .nothing
      (writesAfter_of_readBit? hbitText hbit), rfl⟩

/-- What is read after an element number, as it is written. -/
theorem eq_of_readSuffix? {suffix : Suffix} (h : Suffix.read? text = some suffix) :
    suffix = .nothing ∧ text = [] ∨
      (∃ tail, suffix = .slash tail ∧ text = '/' :: tail ∧ 1 ≤ tail.length ∧ tail.length ≤ 2) ∨
        ∃ tail, suffix = .point tail ∧ text = '.' :: tail := by
  unfold Suffix.read? at h
  split at h
  · exact .inl ⟨(Option.some.inj h).symm, rfl⟩
  · rename_i tail
    refine .inr (.inl ⟨tail, ?_⟩)
    split at h
    · rename_i hdigits
      obtain ⟨digits, hdigits⟩ := Option.isSome_iff_exists.mp hdigits
      obtain ⟨rfl, hlength⟩ := eq_of_allDigits hdigits
      exact ⟨(Option.some.inj h).symm, rfl, hlength⟩
    · split at h
      · rename_i hletters
        exact ⟨(Option.some.inj h).symm, rfl, by omega, by omega⟩
      · cases h
  · split at h
    · exact .inr (.inr ⟨_, (Option.some.inj h).symm, rfl⟩)
    · cases h
  · cases h

theorem spellsPart_of_read? {suffix : Suffix} (number element : Nat)
    (h : Suffix.read? text = some suffix)
    (hresolve : Spelling.resolvePart kind suffix = .ok part) :
    SpellsPart (fileRule kind) text part (accepts (.file kind number element part)) := by
  -- Behind the element there is nothing, a number or a flag after a slash, or a member.
  obtain ⟨rfl, rfl⟩ | ⟨tail, rfl, rfl, hlength⟩ | ⟨tail, rfl, rfl⟩ := eq_of_readSuffix? h
  · have hwhole : Spelling.resolvePart kind .nothing = .ok .whole := by
      cases kind <;> rfl
    rw [hwhole] at hresolve
    obtain rfl := Except.ok.inj hresolve
    rw [accepts, accepts_eq]
    exact .whole
  · cases hlast : kind.lastBit? with
    | some last =>
        simp only [Spelling.resolvePart, hlast] at hresolve
        split at hresolve
        · obtain ⟨index, hindex, rfl⟩ := exists_of_map_eq_ok hresolve
          rw [lastBit?_eq] at hlast
          exact .bit hlast (writes_of_bounded hlength hindex)
        · cases hresolve
    | none =>
        simp only [Spelling.resolvePart, hlast] at hresolve
        split at hresolve
        · rename_i hmem
          obtain rfl := Except.ok.inj hresolve
          obtain ⟨name, hname, rfl⟩ := mem_flags_iff.mp hmem
          exact .flag hname
        · cases hresolve
  · cases hlast : kind.lastBit? with
    | some last =>
        simp only [Spelling.resolvePart, hlast] at hresolve
        cases hresolve
    | none =>
        simp only [Spelling.resolvePart, hlast] at hresolve
        split at hresolve
        · rename_i hmem
          obtain rfl := Except.ok.inj hresolve
          obtain ⟨name, hname, rfl⟩ := mem_members_iff.mp hmem
          exact .member hname
        · cases hresolve

theorem eq_letters_append_of_read? (h : FileKind.read? text = some (kind, rest)) :
    text = (fileRule kind).letters.toList ++ rest := by
  unfold FileKind.read? at h
  split at h <;> cases h <;> rfl

theorem spells_of_readFile? (h : Spelling.readFile? text = some spelling)
    (hresolve : spelling.resolve = .ok element) :
    Spells text element element.area element.accepts := by
  obtain ⟨⟨kind, rest⟩, hkind, hrest⟩ := Option.bind_eq_some_iff.mp h
  obtain ⟨⟨numberText, rest⟩, hnumberText, hrest⟩ := Option.bind_eq_some_iff.mp hrest
  obtain ⟨heq, hnumberLength⟩ := eq_append_of_digitsUpTo hnumberText
  rw [eq_letters_append_of_read? hkind, heq]
  dsimp only at hrest
  split at hrest
  · obtain ⟨⟨elementText, rest⟩, helementText, hrest⟩ := Option.bind_eq_some_iff.mp hrest
    obtain ⟨suffix, hsuffix, hrest⟩ := Option.bind_eq_some_iff.mp hrest
    obtain rfl := Option.some.inj hrest
    obtain ⟨heq, helementLength⟩ := eq_append_of_digitsUpTo helementText
    rw [heq]
    unfold Spelling.resolve at hresolve
    obtain ⟨number, hnumber, hresolve⟩ := exists_of_bind_eq_ok hresolve
    obtain ⟨inner, helement, hresolve⟩ := exists_of_bind_eq_ok hresolve
    obtain ⟨part, hpart, hresolve⟩ := exists_of_bind_eq_ok hresolve
    obtain rfl := Except.ok.inj hresolve
    exact .file (writes_of_bounded hnumberLength hnumber)
      (writes_of_bounded helementLength helement)
      (spellsPart_of_read? number inner hsuffix hpart)
  · cases hrest

theorem spells_of_read (h : read text = .ok element) :
    Spells (text.map Char.toUpper) element element.area element.accepts := by
  unfold read at h
  split at h
  · rename_i spelling hread
    unfold Spelling.read? at hread
    split at hread
    · obtain ⟨slot, word, bit, hspells, rfl⟩ := spellsWord_of_readWired? hread h
      rename_i heq
      rw [heq, accepts_wired]
      exact .input hspells
    · obtain ⟨slot, word, bit, hspells, rfl⟩ := spellsWord_of_readWired? hread h
      rename_i heq
      rw [heq, accepts_wired]
      exact .output hspells
    · exact spells_of_readFile? hread h
  · cases h

/-! ## What is spelled is read -/

theorem exists_of_writesAfter_slash {bit : Option Nat} (h : WritesAfter '/' 2 15 text bit) :
    ∃ digits, Spelling.readBit? text = some digits ∧ bounded? .bit 0 15 digits = .ok bit := by
  cases h with
  | nothing => exact ⟨none, rfl, rfl⟩
  | @number digits index hindex =>
      refine ⟨some digits, ?_, ?_⟩
      · rw [Spelling.readBit?, hindex.allDigits_eq]
        rfl
      · rw [bounded?, hindex.bounded_eq]
        rfl

theorem exists_spelling_of_spellsWord {slot word : Nat} {bit : Option Nat}
    (h : SpellsWord text slot word bit) :
    ∃ spelling, Spelling.readWired? side text = some spelling ∧
      spelling.resolve = .ok (.wired side slot word bit) := by
  obtain @⟨slotText, wordText, bitText, slot, word, bit, hslot, hword, hbit⟩ := h
  obtain ⟨digits, hread, hvalue⟩ := exists_of_writesAfter_slash hbit
  have hends : EndsDigits bitText := by
    rw [← List.append_nil bitText]
    exact WritesAfter.endsDigits (by decide) (by decide) hbit endsDigits_nil
  have hslotCut := hslot.digitsUpTo_eq (WritesAfter.endsDigits (by decide) (by decide) hword hends)
  cases hword with
  | nothing =>
      refine ⟨.wired side slotText none digits, ?_, ?_⟩
      · rw [Spelling.readWired?, hslotCut]
        simp only [bind, Option.bind, List.nil_append]
        -- Without a word, the bit follows at once.
        cases hbit with
        | nothing => rw [hread]; rfl
        | number hindex => simp only [hread]; rfl
      · rw [Spelling.resolve, hslot.bounded_eq, hvalue]
        rfl
  | @number wordText word hword =>
      refine ⟨.wired side slotText (some wordText) digits, ?_, ?_⟩
      · rw [Spelling.readWired?, hslotCut]
        simp only [bind, Option.bind, List.cons_append]
        rw [hword.digitsUpTo_eq hends]
        simp only [hread]
        rfl
      · rw [Spelling.resolve, hslot.bounded_eq, bounded?, hword.bounded_eq, hvalue]
        rfl

theorem SpellsPart.endsDigits {rule : FileRule} (h : SpellsPart rule text part types) :
    EndsDigits text := by
  cases h with
  | whole => exact endsDigits_nil
  | bit => exact endsDigits_cons _ (by decide) (by decide)
  | flag => exact endsDigits_cons _ (by decide) (by decide)
  | member => exact endsDigits_cons _ (by decide) (by decide)

/-- Where the status bits of an element have names, its bits have no numbers. -/
theorem readSuffix?_of_mem_flags (kind : FileKind) :
    ∀ name ∈ (fileRule kind).flags,
      Suffix.read? ('/' :: name.toList) = some (.slash name.toList) ∧ kind.lastBit? = none := by
  cases kind <;> decide

theorem readSuffix?_of_mem_members (kind : FileKind) :
    ∀ name ∈ (fileRule kind).members,
      Suffix.read? ('.' :: name.toList) = some (.point name.toList) ∧ kind.lastBit? = none := by
  cases kind <;> decide

theorem exists_suffix_of_spellsPart (h : SpellsPart (fileRule kind) text part types) :
    ∃ suffix, Suffix.read? text = some suffix ∧ Spelling.resolvePart kind suffix = .ok part := by
  cases h with
  | whole =>
      refine ⟨.nothing, rfl, ?_⟩
      cases kind <;> rfl
  | @bit last index digits hlast hindex =>
      have hall : digits.all Char.isDigit = true := List.all_eq_true.mpr hindex.isDigit
      rw [← lastBit?_eq] at hlast
      refine ⟨.slash digits, ?_, ?_⟩
      · rw [Suffix.read?, hindex.allDigits_eq]
        rfl
      · simp only [Spelling.resolvePart, hlast]
        rw [if_pos hall, hindex.bounded_eq]
        rfl
  | @flag name hname =>
      obtain ⟨hread, hnone⟩ := readSuffix?_of_mem_flags kind name hname
      have hmem : name.toList ∈ kind.flags := mem_flags_iff.mpr ⟨_, hname, rfl⟩
      refine ⟨.slash name.toList, hread, ?_⟩
      simp only [Spelling.resolvePart, hnone, if_pos hmem]
  | @member name hname =>
      obtain ⟨hread, hnone⟩ := readSuffix?_of_mem_members kind name hname
      have hmem : name.toList ∈ kind.members := mem_members_iff.mpr ⟨_, hname, rfl⟩
      refine ⟨.point name.toList, hread, ?_⟩
      simp only [Spelling.resolvePart, hnone, if_pos hmem]

/-- A text that begins with the letters of a data file is no input or output. -/
theorem read?_letters (kind : FileKind) (rest : List Char) :
    Spelling.read? ((fileRule kind).letters.toList ++ rest) =
      Spelling.readFile? ((fileRule kind).letters.toList ++ rest) := by
  cases kind <;> rfl

theorem readKind?_letters (kind : FileKind) (rest : List Char) :
    FileKind.read? ((fileRule kind).letters.toList ++ rest) = some (kind, rest) := by
  cases kind <;> rfl

/-- A text that spells an element is taken apart so that the element is found. -/
theorem exists_spelling_of_spells (h : Spells text element area types) :
    ∃ spelling, Spelling.read? text = some spelling ∧ spelling.resolve = .ok element := by
  cases h with
  | input h => exact exists_spelling_of_spellsWord h
  | output h => exact exists_spelling_of_spellsWord h
  | @file kind numberText elementText partText number element part types hnumber helement hpart =>
      obtain ⟨suffix, hsuffix, hresolve⟩ := exists_suffix_of_spellsPart hpart
      refine ⟨.file kind numberText elementText suffix, ?_, ?_⟩
      · rw [read?_letters, Spelling.readFile?, readKind?_letters]
        simp only [bind, Option.bind]
        rw [hnumber.digitsUpTo_eq (endsDigits_cons _ (by decide) (by decide))]
        simp only [helement.digitsUpTo_eq hpart.endsDigits, hsuffix]
        rfl
      · rw [Spelling.resolve, hnumber.bounded_eq, helement.bounded_eq, hresolve]
        rfl

theorem SpellsPart.accepts_eq (number element : Nat)
    (h : SpellsPart (fileRule kind) text part types) :
    accepts (.file kind number element part) = types := by
  cases h with
  | whole => exact Rockwell.accepts_eq kind
  | bit => rfl
  | flag => rfl
  | member => rfl

theorem Spells.traits_eq (h : Spells text element area types) :
    element.area = area ∧ element.accepts = types := by
  cases h with
  | input => exact ⟨rfl, accepts_wired _ _ _ _⟩
  | output => exact ⟨rfl, accepts_wired _ _ _ _⟩
  | file hnumber helement hpart => exact ⟨rfl, hpart.accepts_eq _ _⟩

/-- Every spelling has a colon. -/
theorem Spells.colon_mem (h : Spells text element area types) : ':' ∈ text := by
  cases h with
  | input => exact List.mem_cons_of_mem _ List.mem_cons_self
  | output => exact List.mem_cons_of_mem _ List.mem_cons_self
  | file =>
      exact List.mem_append_right _ (List.mem_append_right _ List.mem_cons_self)

/-- **Reading is the grammar**: what is read, and what is said of it, is what is spelled. -/
theorem read_iff : (read text = .ok element ∧ element.area = area ∧ element.accepts = types) ↔
    Spells (text.map Char.toUpper) element area types := by
  constructor
  · rintro ⟨h, rfl, rfl⟩
    exact spells_of_read h
  · intro h
    obtain ⟨spelling, hread, hresolve⟩ := exists_spelling_of_spells h
    refine ⟨?_, h.traits_eq⟩
    rw [read, hread]
    exact hresolve

/-! ## Reading gives valid elements -/

theorem SpellsPart.fitsKind (h : SpellsPart (fileRule kind) text part types) :
    part.FitsKind kind := by
  cases h with
  | whole => trivial
  | bit hlast hindex => exact ⟨_, (lastBit?_eq kind).symm ▸ hlast, hindex.le_greatest⟩
  | flag hname => exact mem_flags_iff.mpr ⟨_, hname, rfl⟩
  | member hname => exact mem_members_iff.mpr ⟨_, hname, rfl⟩

theorem SpellsWord.isValid {slot word : Nat} {bit : Option Nat}
    (h : SpellsWord text slot word bit) : (wired side slot word bit).IsValid := by
  obtain @⟨_, _, _, _, word, _, hslot, hword, hbit⟩ := h
  refine ⟨hslot.le_greatest, ?_, hbit.le_greatest⟩
  cases word with
  | none => exact Nat.zero_le _
  | some word => exact hword.le_greatest word rfl

theorem Spells.isValid (h : Spells text element area types) : element.IsValid := by
  cases h with
  | input h => exact h.isValid
  | output h => exact h.isValid
  | file hnumber helement hpart =>
      exact ⟨hnumber.least_le, hnumber.le_greatest, helement.le_greatest, hpart.fitsKind⟩

/-! ## Characters of a spelling -/

/-- The names of a kind of file are written in canonical characters. -/
theorem canonical_of_all {text : List Char} (h : text.all (fun c => decide (Canonical c)) = true) :
    ∀ c ∈ text, Canonical c := by
  intro c hc
  exact of_decide_eq_true (List.all_eq_true.mp h c hc)

theorem canonical_letters (kind : FileKind) : ∀ c ∈ kind.letters, Canonical c := by
  refine canonical_of_all ?_
  cases kind <;> decide

theorem canonical_of_mem_flags {kind : FileKind} {name : List Char} (hname : name ∈ kind.flags) :
    ∀ c ∈ name, Canonical c := by
  have hall : ∀ kind : FileKind, ∀ name ∈ kind.flags,
      name.all (fun c => decide (Canonical c)) = true := by
    intro kind
    cases kind <;> decide
  exact canonical_of_all (hall kind name hname)

theorem canonical_of_mem_members {kind : FileKind} {name : List Char}
    (hname : name ∈ kind.members) : ∀ c ∈ name, Canonical c := by
  have hall : ∀ kind : FileKind, ∀ name ∈ kind.members,
      name.all (fun c => decide (Canonical c)) = true := by
    intro kind
    cases kind <;> decide
  exact canonical_of_all (hall kind name hname)

theorem canonical_part {kind : FileKind} {part : Part} (hpart : part.FitsKind kind) :
    ∀ c ∈ Part.render part, Canonical c := by
  cases part with
  | whole => exact List.forall_mem_nil _
  | bit index => exact List.forall_mem_cons.mpr ⟨by decide, canonical_decimal index⟩
  | flag name => exact List.forall_mem_cons.mpr ⟨by decide, canonical_of_mem_flags hpart⟩
  | member name => exact List.forall_mem_cons.mpr ⟨by decide, canonical_of_mem_members hpart⟩

theorem canonical_render {address : Rockwell} (hvalid : address.IsValid) :
    ∀ c ∈ address.render, Canonical c := by
  cases address with
  | wired side slot word bit =>
      have hside : Canonical (sideLetter side) := by
        cases side <;> decide
      have hword : ∀ c ∈ (if word = 0 then [] else '.' :: decimal word), Canonical c := by
        split
        · exact List.forall_mem_nil _
        · exact List.forall_mem_cons.mpr ⟨by decide, canonical_decimal word⟩
      simp only [render, List.cons_append, List.append_assoc, List.forall_mem_cons,
        List.forall_mem_append]
      refine ⟨hside, by decide, canonical_decimal slot, hword, ?_⟩
      cases bit with
      | none => exact List.forall_mem_nil _
      | some bit => exact List.forall_mem_cons.mpr ⟨by decide, canonical_decimal bit⟩
  | file kind number element part =>
      simp only [render, List.cons_append, List.append_assoc, List.forall_mem_cons,
        List.forall_mem_append]
      exact ⟨canonical_letters kind, canonical_decimal number, by decide,
        canonical_decimal element, canonical_part hvalid.2.2.2⟩

/-! ## Canonical spellings -/

/-- How a bit of an input or output is written. -/
def bitSuffix : Option Nat → List Char
  | some index => '/' :: decimal index
  | none => []

theorem render_wired (side : Side) (slot word : Nat) (bit : Option Nat) :
    render (wired side slot word bit) = sideLetter side :: ':' :: (decimal slot ++
      ((if word = 0 then [] else '.' :: decimal word) ++ bitSuffix bit)) := by
  cases bit <;> simp [render, bitSuffix]

theorem spellsWord_render {slot word : Nat} {bit : Option Nat} (hslot : slot ≤ 30)
    (hword : word ≤ 255) (hbit : ∀ index ∈ bit, index ≤ 15) :
    SpellsWord (decimal slot ++
      ((if word = 0 then [] else '.' :: decimal word) ++ bitSuffix bit)) slot word bit := by
  have hslotWrites : Writes 3 0 30 (decimal slot) slot :=
    writes_decimal (by decide) (by decide) (Nat.zero_le _) hslot
  have hbitWrites : WritesAfter '/' 2 15 (bitSuffix bit) bit := by
    cases bit with
    | none => exact .nothing
    | some index =>
        have hindex := hbit index rfl
        exact .number (writes_decimal (by decide) (by decide) (Nat.zero_le _) hindex)
  -- Word 0 is not written, and where no word is written, 0 is meant.
  by_cases hzero : word = 0
  · rw [if_pos hzero, hzero]
    exact .mk hslotWrites .nothing hbitWrites
  · rw [if_neg hzero]
    have hwordWrites : Writes 3 0 255 (decimal word) word :=
      writes_decimal (by decide) (by decide) (Nat.zero_le _) hword
    exact .mk hslotWrites (.number hwordWrites) hbitWrites

theorem spellsPart_render (hpart : part.FitsKind kind) (number element : Nat) :
    SpellsPart (fileRule kind) (Part.render part) part
      (accepts (.file kind number element part)) := by
  cases part with
  | whole =>
      rw [accepts, accepts_eq]
      exact .whole
  | bit index =>
      obtain ⟨last, hlast, hindex⟩ := hpart
      -- No kind of file has so many bits that an index takes more than two digits.
      have hbound : ∀ kind : FileKind, ∀ last ∈ kind.lastBit?, last < Nat.pow 10 2 := by
        intro kind
        cases kind <;> decide
      have hdigits := hbound kind last hlast
      rw [lastBit?_eq] at hlast
      exact .bit hlast (writes_decimal (by decide) hdigits (Nat.zero_le _) hindex)
  | flag name =>
      obtain ⟨name, hname, rfl⟩ := mem_flags_iff.mp hpart
      exact .flag hname
  | member name =>
      obtain ⟨name, hname, rfl⟩ := mem_members_iff.mp hpart
      exact .member hname

/-- The canonical spelling is a spelling. -/
theorem spells_render (hvalid : element.IsValid) :
    Spells element.render element element.area element.accepts := by
  cases element with
  | wired side slot word bit =>
      obtain ⟨hslot, hword, hbit⟩ := hvalid
      rw [render_wired, accepts_wired]
      cases side with
      | input => exact .input (spellsWord_render hslot hword hbit)
      | output => exact .output (spellsWord_render hslot hword hbit)
  | file kind number element part =>
      obtain ⟨hleast, hnumber, helement, hpart⟩ := hvalid
      have hrender : render (.file kind number element part) = (fileRule kind).letters.toList ++
          (decimal number ++ ':' :: (decimal element ++ Part.render part)) := by
        rw [render, letters_eq]
        simp
      rw [hrender]
      exact .file
        (writes_decimal (by decide) (by decide) hleast hnumber)
        (writes_decimal (by decide) (by decide) (Nat.zero_le _) helement)
        (spellsPart_render hpart number element)

end Rockwell

end PlcTags.Address
