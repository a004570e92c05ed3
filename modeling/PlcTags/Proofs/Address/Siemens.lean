import PlcTags.Address.Siemens
import PlcTags.Proofs.Address.Numeral

/-!
# The grammar of Siemens addresses

`Siemens.Spells` is the grammar: which texts spell which element, and what is said of the
element.  Any number of percent signs may stand in front of a spelling
(`Siemens.SpellsBehind`).  Reading finds exactly what is spelled in this way
(`read_iff`).

`Siemens.IsValid` holds the ranges of the numbers.  Nothing else is spelled
(`Spells.isValid`), and the canonical spelling of a valid element is one of its spellings
(`spells_render`), with the international letters and no percent sign.
-/

namespace PlcTags.Address

open Text

namespace Siemens

/-! ## The grammar -/

/-- The international and the German letter of an area. -/
inductive IsAreaLetter : Char → Area → Prop
  | input : IsAreaLetter 'I' .input
  | eingang : IsAreaLetter 'E' .input
  | output : IsAreaLetter 'Q' .output
  | ausgang : IsAreaLetter 'A' .output
  | memory : IsAreaLetter 'M' .memory

/-- A text in upper case and without a percent sign spells an element: the area of the
element, and the types that it can hold. -/
inductive Spells : List Char → Siemens → Area → List DataType → Prop
  | bit {letter : Char} {area : Area} {byteText indexText : List Char} {byte index : Nat}
      (hletter : IsAreaLetter letter area) (hbyte : Writes 5 0 65535 byteText byte)
      (hindex : Writes 2 0 7 indexText index) :
      Spells (letter :: (byteText ++ '.' :: indexText)) (.bit area byte index) area [.bool]
  | sized {letter sizeLetter : Char} {area : Area} {size : Size} {types : List DataType}
      {byteText : List Char} {byte : Nat} (hletter : IsAreaLetter letter area)
      (hsize : IsSizeLetter sizeLetter size types) (hbyte : Writes 5 0 65535 byteText byte) :
      Spells (letter :: sizeLetter :: byteText) (.sized area size byte) area types
  | timer {text : List Char} {number : Nat} (hnumber : Writes 5 0 2047 text number) :
      Spells ('T' :: text) (.timer number) .memory [.timer]
  | counter {letter : Char} {text : List Char} {number : Nat}
      (hletter : letter = 'C' ∨ letter = 'Z') (hnumber : Writes 5 0 2047 text number) :
      Spells (letter :: text) (.counter number) .memory [.counter]
  | blockBit {blockText byteText indexText : List Char} {block byte index : Nat}
      (hblock : Writes 5 1 65535 blockText block) (hbyte : Writes 5 0 65535 byteText byte)
      (hindex : Writes 2 0 7 indexText index) :
      Spells ('D' :: 'B' :: (blockText ++ '.' :: 'D' :: 'B' :: 'X' ::
        (byteText ++ '.' :: indexText))) (.blockBit block byte index) .memory [.bool]
  | blockSized {sizeLetter : Char} {size : Size} {types : List DataType}
      {blockText byteText : List Char} {block byte : Nat}
      (hsize : IsSizeLetter sizeLetter size types) (hblock : Writes 5 1 65535 blockText block)
      (hbyte : Writes 5 0 65535 byteText byte) :
      Spells ('D' :: 'B' :: (blockText ++ '.' :: 'D' :: 'B' :: sizeLetter :: byteText))
        (.blockSized block size byte) .memory types

/-- A text in upper case spells an element behind so many percent signs. -/
def SpellsBehind (signs : Nat) (text : List Char) (element : Siemens) (area : Area)
    (types : List DataType) : Prop :=
  ∃ body, text = List.replicate signs '%' ++ body ∧ Spells body element area types

variable {text : List Char} {spelling : Spelling} {element : Siemens} {area : Area}
  {types : List DataType}

/-! ## What is read is spelled -/

theorem isAreaLetter_of_areaOfLetter? {letter : Char} (h : areaOfLetter? letter = some area) :
    IsAreaLetter letter area := by
  unfold areaOfLetter? at h
  split at h <;> cases h <;> constructor

/-- The text after the letter of an area. -/
theorem spells_of_readImage? {letter : Char} (hletter : IsAreaLetter letter area)
    (h : Spelling.readImage? area text = some spelling)
    (hresolve : spelling.resolve = .ok element) :
    Spells (letter :: text) element element.area element.accepts := by
  unfold Spelling.readImage? at h
  split at h
  · cases h
  · split at h
    · rename_i size hsize
      obtain ⟨byteText, hbyte, rfl⟩ := Option.map_eq_some_iff.mp h
      obtain ⟨byte, hvalue, rfl⟩ := exists_of_map_eq_ok hresolve
      obtain ⟨rfl, hlength⟩ := eq_of_allDigits hbyte
      exact .sized hletter (isSizeLetter_of_ofLetter? hsize) (writes_of_bounded hlength hvalue)
    · obtain ⟨⟨byteText, rest⟩, hbyte, h⟩ := Option.bind_eq_some_iff.mp h
      dsimp only at h
      split at h
      · obtain ⟨indexText, hindex, rfl⟩ := Option.map_eq_some_iff.mp h
        unfold Spelling.resolve at hresolve
        obtain ⟨byte, hbyteValue, hresolve⟩ := exists_of_bind_eq_ok hresolve
        obtain ⟨index, hindexValue, hresolve⟩ := exists_of_bind_eq_ok hresolve
        obtain rfl := Except.ok.inj hresolve
        obtain ⟨heq, hbyteLength⟩ := eq_append_of_digitsUpTo hbyte
        obtain ⟨rfl, hindexLength⟩ := eq_of_allDigits hindex
        rw [heq]
        exact .bit hletter (writes_of_bounded hbyteLength hbyteValue)
          (writes_of_bounded hindexLength hindexValue)
      · cases h

/-- A number after the letter of a timer or counter. -/
theorem exists_of_allDigits {make : Digits → Spelling} {build : Nat → Siemens}
    (h : make <$> allDigits 5 text = some spelling)
    (hmake : ∀ digits, (make digits).resolve = build <$> bounded .number 0 2047 digits)
    (hresolve : spelling.resolve = .ok element) :
    ∃ number, Writes 5 0 2047 text number ∧ element = build number := by
  obtain ⟨digits, hdigits, rfl⟩ := Option.map_eq_some_iff.mp h
  rw [hmake] at hresolve
  obtain ⟨number, hvalue, rfl⟩ := exists_of_map_eq_ok hresolve
  obtain ⟨rfl, hlength⟩ := eq_of_allDigits hdigits
  exact ⟨number, writes_of_bounded hlength hvalue, rfl⟩

/-- The letter of a data block element: `X` for a bit, or a size. -/
theorem letter_of_blockSize? {letter : Char} {size : Option Size}
    (h : Spelling.blockSize? letter = some size) :
    letter = 'X' ∧ size = none ∨
      ∃ width, size = some width ∧ IsSizeLetter letter width width.width.accepts := by
  unfold Spelling.blockSize? at h
  split at h
  · exact .inl ⟨rfl, (Option.some.inj h).symm⟩
  · obtain ⟨width, hwidth, rfl⟩ := Option.map_eq_some_iff.mp h
    exact .inr ⟨width, rfl, isSizeLetter_of_ofLetter? hwidth⟩

section Block

variable {letter : Char} {size : Option Size} {blockText byteText : Digits}

/-- A data block element has an index exactly if it is a bit. -/
theorem exists_of_resolve_block {indexText : Option Digits}
    (h : (Spelling.block blockText size byteText indexText).resolve = .ok element) :
    ∃ block byte, bounded .dataBlock 1 65535 blockText = .ok block ∧
      bounded .byte 0 65535 byteText = .ok byte ∧
      ((∃ digits index, size = none ∧ indexText = some digits ∧
          bounded .bit 0 7 digits = .ok index ∧ element = .blockBit block byte index) ∨
        ∃ width, size = some width ∧ indexText = none ∧
          element = .blockSized block width byte) := by
  unfold Spelling.resolve at h
  obtain ⟨block, hblock, h⟩ := exists_of_bind_eq_ok h
  obtain ⟨byte, hbyte, h⟩ := exists_of_bind_eq_ok h
  refine ⟨block, byte, hblock, hbyte, ?_⟩
  split at h
  · obtain ⟨index, hindex, rfl⟩ := exists_of_map_eq_ok h
    exact .inl ⟨_, index, rfl, rfl, hindex, rfl⟩
  · exact .inr ⟨_, rfl, rfl, (Except.ok.inj h).symm⟩
  · cases h

theorem spells_of_resolve_sized (hsize : Spelling.blockSize? letter = some size)
    (hblock : 1 ≤ blockText.length ∧ blockText.length ≤ 5)
    (hbyte : 1 ≤ byteText.length ∧ byteText.length ≤ 5)
    (h : (Spelling.block blockText size byteText none).resolve = .ok element) :
    Spells ('D' :: 'B' :: (blockText ++ '.' :: 'D' :: 'B' :: letter :: byteText)) element
      element.area element.accepts := by
  obtain ⟨block, byte, hblockValue, hbyteValue, ⟨_, _, -, hnone, -⟩ | ⟨width, rfl, -, rfl⟩⟩ :=
    exists_of_resolve_block h
  · cases hnone
  · rcases letter_of_blockSize? hsize with ⟨-, hnone⟩ | ⟨_, hsame, hwidth⟩
    · cases hnone
    · obtain rfl := Option.some.inj hsame
      exact .blockSized hwidth (writes_of_bounded hblock hblockValue)
        (writes_of_bounded hbyte hbyteValue)

theorem spells_of_resolve_bit {indexText : Digits} (hsize : Spelling.blockSize? letter = some size)
    (hblock : 1 ≤ blockText.length ∧ blockText.length ≤ 5)
    (hbyte : 1 ≤ byteText.length ∧ byteText.length ≤ 5)
    (hindex : 1 ≤ indexText.length ∧ indexText.length ≤ 2)
    (h : (Spelling.block blockText size byteText (some indexText)).resolve = .ok element) :
    Spells ('D' :: 'B' :: (blockText ++ '.' :: 'D' :: 'B' :: letter ::
      (byteText ++ '.' :: indexText))) element element.area element.accepts := by
  obtain ⟨block, byte, hblockValue, hbyteValue, ⟨_, index, rfl, hsame, hindexValue, rfl⟩ |
    ⟨_, -, hnone, -⟩⟩ := exists_of_resolve_block h
  · obtain rfl := Option.some.inj hsame
    rcases letter_of_blockSize? hsize with ⟨rfl, -⟩ | ⟨_, hnone, -⟩
    · exact .blockBit (writes_of_bounded hblock hblockValue) (writes_of_bounded hbyte hbyteValue)
        (writes_of_bounded hindex hindexValue)
    · cases hnone
  · cases hnone

end Block

/-- The text after the first letters of a data block. -/
theorem spells_of_readBlock? (h : Spelling.readBlock? text = some spelling)
    (hresolve : spelling.resolve = .ok element) :
    Spells ('D' :: 'B' :: text) element element.area element.accepts := by
  obtain ⟨⟨blockText, rest⟩, hblock, hrest⟩ := Option.bind_eq_some_iff.mp h
  obtain ⟨rfl, hblockLength⟩ := eq_append_of_digitsUpTo hblock
  dsimp only at hrest
  split at hrest
  · obtain ⟨size, hsize, hrest⟩ := Option.bind_eq_some_iff.mp hrest
    obtain ⟨⟨byteText, rest⟩, hbyte, hrest⟩ := Option.bind_eq_some_iff.mp hrest
    obtain ⟨heq, hbyteLength⟩ := eq_append_of_digitsUpTo hbyte
    rw [heq]
    dsimp only at hrest
    split at hrest
    · obtain rfl := Option.some.inj hrest
      rw [List.append_nil]
      exact spells_of_resolve_sized hsize hblockLength hbyteLength hresolve
    · obtain ⟨indexText, hindexText, hrest⟩ := Option.bind_eq_some_iff.mp hrest
      obtain rfl := Option.some.inj hrest
      obtain ⟨rfl, hindexLength⟩ := eq_of_allDigits hindexText
      exact spells_of_resolve_bit hsize hblockLength hbyteLength hindexLength hresolve
    · cases hrest
  · cases hrest

theorem spells_of_read? (h : Spelling.read? text = some spelling)
    (hresolve : spelling.resolve = .ok element) :
    Spells text element element.area element.accepts := by
  unfold Spelling.read? at h
  split at h
  · cases h
  · exact spells_of_readBlock? h hresolve
  · obtain ⟨number, hnumber, rfl⟩ := exists_of_allDigits h (fun _ => rfl) hresolve
    exact .timer hnumber
  · obtain ⟨number, hnumber, rfl⟩ := exists_of_allDigits h (fun _ => rfl) hresolve
    exact .counter (.inl rfl) hnumber
  · obtain ⟨number, hnumber, rfl⟩ := exists_of_allDigits h (fun _ => rfl) hresolve
    exact .counter (.inr rfl) hnumber
  · split at h
    · rename_i area harea
      exact spells_of_readImage? (isAreaLetter_of_areaOfLetter? harea) h hresolve
    · cases h

/-! ## What is spelled is read -/

theorem read?_of_isAreaLetter {letter : Char} (h : IsAreaLetter letter area) (c : Char)
    (rest : List Char) :
    Spelling.read? (letter :: c :: rest) = Spelling.readImage? area (c :: rest) := by
  cases h <;> rfl

theorem readImage?_bit (area : Area) {byteText indexText : List Char} {byte index : Nat}
    (hbyte : Writes 5 0 65535 byteText byte) (hindex : Writes 2 0 7 indexText index) :
    Spelling.readImage? area (byteText ++ '.' :: indexText) =
      some (.bit area byteText indexText) := by
  have hcut : digitsUpTo 5 (byteText ++ '.' :: indexText) = some (byteText, '.' :: indexText) :=
    hbyte.digitsUpTo_eq (endsDigits_cons _ (by decide) (by decide))
  -- The number begins with a digit, so it is not taken for a size.
  obtain ⟨c, rest, rfl⟩ := List.exists_cons_of_ne_nil hbyte.ne_nil
  rw [List.cons_append] at hcut ⊢
  rw [Spelling.readImage?, ofLetter?_eq_none_of_isDigit (hbyte.isDigit c List.mem_cons_self)]
  simp only [hcut, bind, Option.bind]
  rw [hindex.allDigits_eq]
  rfl

theorem readBlock?_bit {blockText byteText indexText : List Char} {block byte index : Nat}
    (hblock : Writes 5 1 65535 blockText block) (hbyte : Writes 5 0 65535 byteText byte)
    (hindex : Writes 2 0 7 indexText index) :
    Spelling.readBlock? (blockText ++ '.' :: 'D' :: 'B' :: 'X' ::
      (byteText ++ '.' :: indexText)) =
        some (.block blockText none byteText (some indexText)) := by
  rw [Spelling.readBlock?, hblock.digitsUpTo_eq (endsDigits_cons _ (by decide) (by decide))]
  simp only [bind, Option.bind, Spelling.blockSize?]
  rw [hbyte.digitsUpTo_eq (endsDigits_cons _ (by decide) (by decide))]
  simp only
  rw [hindex.allDigits_eq]
  rfl

theorem readBlock?_sized {sizeLetter : Char} {size : Size} {blockText byteText : List Char}
    {block byte : Nat} (hsize : IsSizeLetter sizeLetter size types)
    (hblock : Writes 5 1 65535 blockText block) (hbyte : Writes 5 0 65535 byteText byte) :
    Spelling.readBlock? (blockText ++ '.' :: 'D' :: 'B' :: sizeLetter :: byteText) =
      some (.block blockText (some size) byteText none) := by
  have hletter : Spelling.blockSize? sizeLetter = some (some size) := by
    cases hsize <;> rfl
  have hcut : digitsUpTo 5 (byteText ++ []) = some (byteText, []) :=
    hbyte.digitsUpTo_eq endsDigits_nil
  rw [List.append_nil] at hcut
  rw [Spelling.readBlock?, hblock.digitsUpTo_eq (endsDigits_cons _ (by decide) (by decide))]
  simp only [bind, Option.bind, hletter, hcut]
  rfl

/-- A text that spells an element is taken apart so that the element is found. -/
theorem exists_spelling_of_spells (h : Spells text element area types) :
    ∃ spelling, Spelling.read? text = some spelling ∧ spelling.resolve = .ok element := by
  cases h with
  | @bit letter _ byteText indexText byte index hletter hbyte hindex =>
      refine ⟨.bit area byteText indexText, ?_, ?_⟩
      · have himage := readImage?_bit area hbyte hindex
        -- What follows the letter of an area is looked at only from its first character on.
        obtain ⟨c, rest, rfl⟩ := List.exists_cons_of_ne_nil hbyte.ne_nil
        rw [List.cons_append] at himage ⊢
        rw [read?_of_isAreaLetter hletter, himage]
      · rw [Spelling.resolve, hbyte.bounded_eq, hindex.bounded_eq]
        rfl
  | @sized letter sizeLetter _ size _ byteText byte hletter hsize hbyte =>
      refine ⟨.sized area size byteText, ?_, ?_⟩
      · rw [read?_of_isAreaLetter hletter, Spelling.readImage?, hsize.ofLetter?_eq]
        simp only
        rw [hbyte.allDigits_eq]
        rfl
      · rw [Spelling.resolve, hbyte.bounded_eq]
        rfl
  | @timer numberText number hnumber =>
      refine ⟨.timer numberText, ?_, ?_⟩
      · rw [Spelling.read?, hnumber.allDigits_eq]
        rfl
      · rw [Spelling.resolve, hnumber.bounded_eq]
        rfl
  | @counter letter numberText number hletter hnumber =>
      refine ⟨.counter numberText, ?_, ?_⟩
      · have hread : Spelling.read? (letter :: numberText) =
            Spelling.counter <$> allDigits 5 numberText := by
          rcases hletter with rfl | rfl <;> rfl
        rw [hread, hnumber.allDigits_eq]
        rfl
      · rw [Spelling.resolve, hnumber.bounded_eq]
        rfl
  | @blockBit blockText byteText indexText block byte index hblock hbyte hindex =>
      refine ⟨.block blockText none byteText (some indexText), ?_, ?_⟩
      · rw [Spelling.read?, readBlock?_bit hblock hbyte hindex]
      · rw [Spelling.resolve, hblock.bounded_eq, hbyte.bounded_eq]
        simp only [bind, Except.bind, hindex.bounded_eq]
        rfl
  | @blockSized sizeLetter size _ blockText byteText block byte hsize hblock hbyte =>
      refine ⟨.block blockText (some size) byteText none, ?_, ?_⟩
      · rw [Spelling.read?, readBlock?_sized hsize hblock hbyte]
      · rw [Spelling.resolve, hblock.bounded_eq, hbyte.bounded_eq]
        rfl

theorem Spells.traits_eq (h : Spells text element area types) :
    element.area = area ∧ element.accepts = types := by
  cases h with
  | bit => exact ⟨rfl, rfl⟩
  | sized hletter hsize => exact ⟨rfl, hsize.accepts_eq⟩
  | timer => exact ⟨rfl, rfl⟩
  | counter => exact ⟨rfl, rfl⟩
  | blockBit => exact ⟨rfl, rfl⟩
  | blockSized hsize => exact ⟨rfl, hsize.accepts_eq⟩

theorem IsAreaLetter.ne_colon {letter : Char} (h : IsAreaLetter letter area) : letter ≠ ':' := by
  cases h <;> decide

/-- No spelling has a colon. -/
theorem Spells.colon_notMem (h : Spells text element area types) : ':' ∉ text := by
  cases h with
  | bit hletter hbyte hindex =>
      simp only [List.mem_cons, List.mem_append, not_or]
      exact ⟨hletter.ne_colon.symm, hbyte.notMem rfl, by decide, hindex.notMem rfl⟩
  | sized hletter hsize hbyte =>
      simp only [List.mem_cons, not_or]
      exact ⟨hletter.ne_colon.symm, hsize.ne_colon.symm, hbyte.notMem rfl⟩
  | timer hnumber =>
      simp only [List.mem_cons, not_or]
      exact ⟨by decide, hnumber.notMem rfl⟩
  | counter hletter hnumber =>
      simp only [List.mem_cons, not_or]
      rcases hletter with rfl | rfl <;> exact ⟨by decide, hnumber.notMem rfl⟩
  | blockBit hblock hbyte hindex =>
      simp only [List.mem_cons, List.mem_append, not_or]
      exact ⟨by decide, by decide, hblock.notMem rfl, by decide, by decide, by decide, by decide,
        hbyte.notMem rfl, by decide, hindex.notMem rfl⟩
  | blockSized hsize hblock hbyte =>
      simp only [List.mem_cons, List.mem_append, not_or]
      exact ⟨by decide, by decide, hblock.notMem rfl, by decide, by decide, by decide,
        hsize.ne_colon.symm, hbyte.notMem rfl⟩

/-! ## Percent signs -/

/-- No spelling begins with a percent sign. -/
theorem Spells.head_ne (h : Spells text element area types) :
    ∃ c rest, text = c :: rest ∧ c ≠ '%' := by
  cases h with
  | bit hletter => cases hletter <;> exact ⟨_, _, rfl, by decide⟩
  | sized hletter => cases hletter <;> exact ⟨_, _, rfl, by decide⟩
  | timer => exact ⟨_, _, rfl, by decide⟩
  | counter hletter => rcases hletter with rfl | rfl <;> exact ⟨_, _, rfl, by decide⟩
  | blockBit => exact ⟨_, _, rfl, by decide⟩
  | blockSized => exact ⟨_, _, rfl, by decide⟩

theorem toUpper_eq_percent_iff (c : Char) : c.toUpper = '%' ↔ c = '%' := by
  constructor
  · intro h
    by_cases hcase : c.toNat < 97 ∨ 122 < c.toNat
    · rwa [toUpper_eq_self hcase] at h
    · have hletters : ∀ code < 123, 97 ≤ code → (Char.ofNat code).toUpper ≠ '%' := by decide
      have hne := hletters c.toNat (by omega) (by omega)
      rw [Char.ofNat_toNat] at hne
      exact absurd h hne
  · rintro rfl
    rfl

theorem dropWhile_map_toUpper (text : List Char) :
    (text.map Char.toUpper).dropWhile (· == '%') =
      (text.dropWhile (· == '%')).map Char.toUpper := by
  have hsame : (fun c : Char => c == '%') ∘ Char.toUpper = (fun c => c == '%') := by
    funext c
    rw [Function.comp_apply, Bool.eq_iff_iff, beq_iff_eq, beq_iff_eq, toUpper_eq_percent_iff]
  rw [List.dropWhile_map, hsame]

theorem SpellsBehind.signs_eq {signs : Nat} (h : SpellsBehind signs text element area types) :
    signs = (text.takeWhile (· == '%')).length := by
  obtain ⟨body, rfl, h⟩ := h
  obtain ⟨c, rest, rfl, hc⟩ := h.head_ne
  rw [List.takeWhile_append_of_pos fun d hd => beq_iff_eq.mpr (List.eq_of_mem_replicate hd),
    List.takeWhile_cons_of_neg (by simpa using hc), List.append_nil, List.length_replicate]

/-- What stands behind all percent signs of a text stands behind some of them. -/
theorem spellsBehind_of_dropWhile (h : Spells (text.dropWhile (· == '%')) element area types) :
    SpellsBehind (text.takeWhile (· == '%')).length text element area types := by
  have hsigns : text.takeWhile (· == '%') =
      List.replicate (text.takeWhile (· == '%')).length '%' :=
    List.eq_replicate_iff.mpr ⟨rfl, fun c hc =>
      beq_iff_eq.mp (List.all_eq_true.mp List.all_takeWhile c hc)⟩
  refine ⟨_, ?_, h⟩
  rw [← hsigns, List.takeWhile_append_dropWhile]

/-- The percent signs in front of a text are told apart from what they stand before. -/
theorem dropWhile_replicate_append {signs : Nat} (h : Spells text element area types) :
    (List.replicate signs '%' ++ text).dropWhile (· == '%') = text := by
  obtain ⟨c, rest, rfl, hc⟩ := h.head_ne
  rw [List.dropWhile_append_of_pos fun d hd => beq_iff_eq.mpr (List.eq_of_mem_replicate hd),
    List.dropWhile_cons_of_neg (by simpa using hc)]

theorem exists_spellsBehind_of_read (h : read text = .ok element) :
    ∃ signs, SpellsBehind signs (text.map Char.toUpper) element element.area
      element.accepts := by
  unfold read at h
  split at h
  · rename_i spelling hread
    have hspells := spells_of_read? hread h
    rw [← dropWhile_map_toUpper] at hspells
    exact ⟨_, spellsBehind_of_dropWhile hspells⟩
  · cases h

/-- **Reading is the grammar**: what is read, and what is said of it, is what is spelled
behind any number of percent signs. -/
theorem read_iff : (read text = .ok element ∧ element.area = area ∧ element.accepts = types) ↔
    ∃ signs, SpellsBehind signs (text.map Char.toUpper) element area types := by
  constructor
  · rintro ⟨h, rfl, rfl⟩
    exact exists_spellsBehind_of_read h
  · rintro ⟨signs, body, hupper, h⟩
    obtain ⟨spelling, hread, hresolve⟩ := exists_spelling_of_spells h
    refine ⟨?_, h.traits_eq⟩
    rw [read, ← dropWhile_map_toUpper, hupper, dropWhile_replicate_append h]
    simp only [hread]
    exact hresolve

/-! ## Elements of the grammar -/

/-- The elements that the grammar can name. -/
def IsValid : Siemens → Prop
  | bit _ byte index => byte ≤ 65535 ∧ index ≤ 7
  | sized _ _ byte => byte ≤ 65535
  | timer number => number ≤ 2047
  | counter number => number ≤ 2047
  | blockBit block byte index => 1 ≤ block ∧ block ≤ 65535 ∧ byte ≤ 65535 ∧ index ≤ 7
  | blockSized block _ byte => 1 ≤ block ∧ block ≤ 65535 ∧ byte ≤ 65535

theorem Spells.isValid (h : Spells text element area types) : element.IsValid := by
  cases h with
  | bit hletter hbyte hindex => exact ⟨hbyte.le_greatest, hindex.le_greatest⟩
  | sized hletter hsize hbyte => exact hbyte.le_greatest
  | timer hnumber => exact hnumber.le_greatest
  | counter hletter hnumber => exact hnumber.le_greatest
  | blockBit hblock hbyte hindex =>
      exact ⟨hblock.least_le, hblock.le_greatest, hbyte.le_greatest, hindex.le_greatest⟩
  | blockSized hsize hblock hbyte =>
      exact ⟨hblock.least_le, hblock.le_greatest, hbyte.le_greatest⟩

/-! ## Characters of a spelling -/

theorem canonical_areaLetter (area : Area) : Canonical (areaLetter area) := by
  cases area <;> decide

theorem canonical_render (address : Siemens) : ∀ c ∈ address.render, Canonical c := by
  cases address with
  | bit area byte index =>
      simp only [render, List.cons_append, List.forall_mem_cons, List.forall_mem_append]
      exact ⟨canonical_areaLetter area, canonical_decimal byte, by decide, canonical_decimal index⟩
  | sized area size byte =>
      simp only [render, List.forall_mem_cons]
      exact ⟨canonical_areaLetter area, canonical_letter size, canonical_decimal byte⟩
  | timer number =>
      simp only [render, List.forall_mem_cons]
      exact ⟨by decide, canonical_decimal number⟩
  | counter number =>
      simp only [render, List.forall_mem_cons]
      exact ⟨by decide, canonical_decimal number⟩
  | blockBit block byte index =>
      simp only [render, List.cons_append, List.nil_append, List.append_assoc,
        List.forall_mem_cons, List.forall_mem_append]
      exact ⟨by decide, by decide, canonical_decimal block, by decide, by decide, by decide,
        by decide, canonical_decimal byte, by decide, canonical_decimal index⟩
  | blockSized block size byte =>
      simp only [render, List.cons_append, List.nil_append, List.append_assoc,
        List.forall_mem_cons, List.forall_mem_append]
      exact ⟨by decide, by decide, canonical_decimal block, by decide, by decide, by decide,
        canonical_letter size, canonical_decimal byte⟩

/-! ## Canonical spellings -/

theorem isAreaLetter_areaLetter (area : Area) : IsAreaLetter (areaLetter area) area := by
  cases area <;> constructor

/-- The canonical spelling is a spelling. -/
theorem spells_render (hvalid : element.IsValid) :
    Spells element.render element element.area element.accepts := by
  have hbyteWrites {byte : Nat} (hbyte : byte ≤ 65535) : Writes 5 0 65535 (decimal byte) byte :=
    writes_decimal (by decide) (by decide) (Nat.zero_le _) hbyte
  cases element with
  | bit area byte index =>
      obtain ⟨hbyte, hindex⟩ := hvalid
      exact .bit (isAreaLetter_areaLetter area) (hbyteWrites hbyte)
        (writes_decimal (by decide) (by decide) (Nat.zero_le _) hindex)
  | sized area size byte =>
      exact .sized (isAreaLetter_areaLetter area) (isSizeLetter_letter size) (hbyteWrites hvalid)
  | timer number =>
      exact .timer (writes_decimal (by decide) (by decide) (Nat.zero_le _) hvalid)
  | counter number =>
      exact .counter (.inl rfl) (writes_decimal (by decide) (by decide) (Nat.zero_le _) hvalid)
  | blockBit block byte index =>
      obtain ⟨hleast, hgreatest, hbyte, hindex⟩ := hvalid
      have hrender : render (.blockBit block byte index) = 'D' :: 'B' :: (decimal block ++
          '.' :: 'D' :: 'B' :: 'X' :: (decimal byte ++ '.' :: decimal index)) := by
        simp [render]
      rw [hrender]
      exact .blockBit
        (writes_decimal (by decide) (by decide) hleast hgreatest)
        (hbyteWrites hbyte)
        (writes_decimal (by decide) (by decide) (Nat.zero_le _) hindex)
  | blockSized block size byte =>
      obtain ⟨hleast, hgreatest, hbyte⟩ := hvalid
      have hrender : render (.blockSized block size byte) = 'D' :: 'B' :: (decimal block ++
          '.' :: 'D' :: 'B' :: size.letter :: decimal byte) := by
        simp [render]
      rw [hrender]
      exact .blockSized (isSizeLetter_letter size)
        (writes_decimal (by decide) (by decide) hleast hgreatest)
        (hbyteWrites hbyte)

end Siemens

end PlcTags.Address
