import PlcTags.Address.Beckhoff
import PlcTags.Proofs.Address.Numeral

/-!
# The grammar of Beckhoff addresses

`Beckhoff.Spells` is the grammar: which texts spell which element, and what is said of the
element.  Reading finds exactly what is spelled (`read_iff`).

`Beckhoff.IsValid` holds the ranges of the numbers.  Nothing else is spelled
(`Spells.isValid`), and the canonical spelling of a valid element is one of its spellings
(`spells_render`), in which a bit is marked.
-/

namespace PlcTags.Address

open Text

namespace Beckhoff

/-! ## The grammar -/

/-- The letter of an area. -/
inductive IsAreaLetter : Char → Area → Prop
  | input : IsAreaLetter 'I' .input
  | output : IsAreaLetter 'Q' .output
  | memory : IsAreaLetter 'M' .memory

/-- A text in upper case spells an element: the area and the location that the element
has, and the types that it can hold. -/
inductive Spells : List Char → Beckhoff → Area → Option Location → List DataType → Prop
  | bit {letter : Char} {area : Area} {mark byteText indexText : List Char} {byte index : Nat}
      (hletter : IsAreaLetter letter area) (hmark : mark = [] ∨ mark = ['X'])
      (hbyte : Writes 5 0 65535 byteText byte) (hindex : Writes 2 0 7 indexText index) :
      Spells ('%' :: letter :: (mark ++ (byteText ++ '.' :: indexText))) (.bit area byte index)
        area (some ⟨area, byte, .bit index⟩) [.bool]
  | sized {letter sizeLetter : Char} {area : Area} {size : Size} {types : List DataType}
      {byteText : List Char} {byte : Nat} (hletter : IsAreaLetter letter area)
      (hsize : IsSizeLetter sizeLetter size types) (hbyte : Writes 5 0 65535 byteText byte) :
      Spells ('%' :: letter :: sizeLetter :: byteText) (.sized area size byte)
        area (some ⟨area, byte, size.width⟩) types
  | linkedInput :
      Spells ['%', 'I', '*'] (.linked .input) .input none [.bool, .int16, .int32, .real]
  | linkedOutput :
      Spells ['%', 'Q', '*'] (.linked .output) .output none [.bool, .int16, .int32, .real]

variable {text : List Char} {spelling : Spelling} {element : Beckhoff} {area : Area}

/-! ## What is read is spelled -/

theorem isAreaLetter_of_areaOfLetter? {letter : Char} (h : areaOfLetter? letter = some area) :
    IsAreaLetter letter area := by
  unfold areaOfLetter? at h
  split at h <;> cases h <;> constructor

theorem exists_of_readBit? (h : Spelling.readBit? area text = some spelling)
    (hresolve : spelling.resolve = .ok element) :
    ∃ byteText byte indexText index, text = byteText ++ '.' :: indexText ∧
      Writes 5 0 65535 byteText byte ∧ Writes 2 0 7 indexText index ∧
      element = .bit area byte index := by
  obtain ⟨⟨byteText, rest⟩, hbyte, h⟩ := Option.bind_eq_some_iff.mp h
  dsimp only at h
  split at h
  · rename_i rest
    obtain ⟨indexText, hindex, rfl⟩ := Option.map_eq_some_iff.mp h
    unfold Spelling.resolve at hresolve
    obtain ⟨byte, hbyteValue, hresolve⟩ := exists_of_bind_eq_ok hresolve
    obtain ⟨index, hindexValue, hresolve⟩ := exists_of_bind_eq_ok hresolve
    obtain rfl := Except.ok.inj hresolve
    obtain ⟨rfl, hbyteLength⟩ := eq_append_of_digitsUpTo hbyte
    obtain ⟨rfl, hindexLength⟩ := eq_of_allDigits hindex
    exact ⟨byteText, byte, rest, index, rfl, writes_of_bounded hbyteLength hbyteValue,
      writes_of_bounded hindexLength hindexValue, rfl⟩
  · cases h

/-- The text after the percent sign and the letter of an area. -/
theorem spells_of_readImage? {letter : Char} (hletter : IsAreaLetter letter area)
    (h : Spelling.readImage? area text = some spelling)
    (hresolve : spelling.resolve = .ok element) :
    Spells ('%' :: letter :: text) element element.area element.location? element.accepts := by
  have hbit {mark text : List Char} (hmark : mark = [] ∨ mark = ['X'])
      (h : Spelling.readBit? area text = some spelling) :
      Spells ('%' :: letter :: (mark ++ text)) element element.area element.location?
        element.accepts := by
    obtain ⟨byteText, byte, indexText, index, rfl, hbyte, hindex, rfl⟩ :=
      exists_of_readBit? h hresolve
    exact .bit hletter hmark hbyte hindex
  unfold Spelling.readImage? at h
  split at h
  · -- Only two of the three areas have a placeholder.
    cases hletter with
    | input =>
        obtain rfl := Option.some.inj h
        obtain rfl := Except.ok.inj hresolve
        exact .linkedInput
    | output =>
        obtain rfl := Option.some.inj h
        obtain rfl := Except.ok.inj hresolve
        exact .linkedOutput
    | memory => cases h
  · exact hbit (.inr rfl) h
  · split at h
    · rename_i size hsize
      obtain ⟨sizeLetter, hhead, hsize⟩ := Option.bind_eq_some_iff.mp hsize
      obtain ⟨rest, rfl⟩ := List.head?_eq_some_iff.mp hhead
      obtain ⟨byteText, hbyte, rfl⟩ := Option.map_eq_some_iff.mp h
      obtain ⟨byte, hvalue, rfl⟩ := exists_of_map_eq_ok hresolve
      obtain ⟨rfl, hlength⟩ := eq_of_allDigits hbyte
      exact .sized hletter (isSizeLetter_of_ofLetter? hsize) (writes_of_bounded hlength hvalue)
    · exact hbit (.inl rfl) h

theorem spells_of_read (h : read text = .ok element) :
    Spells (text.map Char.toUpper) element element.area element.location? element.accepts := by
  unfold read at h
  split at h
  · rename_i spelling hread
    unfold Spelling.read? at hread
    split at hread
    · rename_i letter rest heq
      split at hread
      · rename_i area harea
        rw [heq]
        exact spells_of_readImage? (isAreaLetter_of_areaOfLetter? harea) hread h
      · cases hread
    · cases hread
  · cases h

/-! ## What is spelled is read -/

theorem read?_of_isAreaLetter {letter : Char} (h : IsAreaLetter letter area) (rest : List Char) :
    Spelling.read? ('%' :: letter :: rest) = Spelling.readImage? area rest := by
  cases h <;> rfl

theorem readImage?_of_isDigit {c : Char} (hc : c.isDigit = true) (rest : List Char) :
    Spelling.readImage? area (c :: rest) = Spelling.readBit? area (c :: rest) := by
  have hcode := toNat_of_isDigit hc
  unfold Spelling.readImage?
  split
  · rename_i heq
    obtain ⟨rfl, -⟩ := List.cons.inj heq
    exact absurd hcode (by decide)
  · rename_i heq
    obtain ⟨rfl, -⟩ := List.cons.inj heq
    exact absurd hcode (by decide)
  · rw [List.head?_cons, Option.bind_some, ofLetter?_eq_none_of_isDigit hc]

theorem readBit?_eq {byteText indexText : List Char} {byte index : Nat}
    (hbyte : Writes 5 0 65535 byteText byte) (hindex : Writes 2 0 7 indexText index) :
    Spelling.readBit? area (byteText ++ '.' :: indexText) =
      some (.bit area byteText indexText) := by
  rw [Spelling.readBit?, hbyte.digitsUpTo_eq (endsDigits_cons _ (by decide) (by decide))]
  simp only [bind, Option.bind]
  rw [hindex.allDigits_eq]
  rfl

/-- A text that spells an element is taken apart so that the element is found. -/
theorem exists_spelling_of_spells {location : Option Location} {types : List DataType}
    (h : Spells text element area location types) :
    ∃ spelling, Spelling.read? text = some spelling ∧ spelling.resolve = .ok element := by
  cases h with
  | @bit _ _ mark byteText indexText byte index hletter hmark hbyte hindex =>
      refine ⟨.bit area byteText indexText, ?_, ?_⟩
      · rw [read?_of_isAreaLetter hletter, ← readBit?_eq hbyte hindex]
        rcases hmark with rfl | rfl
        · -- The number begins with a digit, so it is not taken for a size.
          obtain ⟨c, rest, rfl⟩ := List.exists_cons_of_ne_nil hbyte.ne_nil
          exact readImage?_of_isDigit (hbyte.isDigit c List.mem_cons_self) _
        · rfl
      · rw [Spelling.resolve, hbyte.bounded_eq, hindex.bounded_eq]
        rfl
  | @sized _ sizeLetter _ size _ byteText byte hletter hsize hbyte =>
      refine ⟨.sized area size byteText, ?_, ?_⟩
      · have hread : Spelling.readImage? area (sizeLetter :: byteText) =
            Spelling.sized area size <$> allDigits 5 byteText := by
          cases hsize <;> rfl
        rw [read?_of_isAreaLetter hletter, hread, hbyte.allDigits_eq]
        rfl
      · rw [Spelling.resolve, hbyte.bounded_eq]
        rfl
  | linkedInput => exact ⟨.linked .input, rfl, rfl⟩
  | linkedOutput => exact ⟨.linked .output, rfl, rfl⟩

theorem Spells.traits_eq {location : Option Location} {types : List DataType}
    (h : Spells text element area location types) :
    element.area = area ∧ element.location? = location ∧ element.accepts = types := by
  cases h with
  | bit => exact ⟨rfl, rfl, rfl⟩
  | sized hletter hsize => exact ⟨rfl, rfl, hsize.accepts_eq⟩
  | linkedInput => exact ⟨rfl, rfl, rfl⟩
  | linkedOutput => exact ⟨rfl, rfl, rfl⟩

theorem Spells.head?_eq {location : Option Location} {types : List DataType}
    (h : Spells text element area location types) : text.head? = some '%' := by
  cases h <;> rfl

theorem IsAreaLetter.ne_colon {letter : Char} (h : IsAreaLetter letter area) : letter ≠ ':' := by
  cases h <;> decide

/-- No spelling has a colon. -/
theorem Spells.colon_notMem {location : Option Location} {types : List DataType}
    (h : Spells text element area location types) : ':' ∉ text := by
  cases h with
  | bit hletter hmark hbyte hindex =>
      simp only [List.mem_cons, List.mem_append, not_or]
      refine ⟨by decide, hletter.ne_colon.symm, ?_, hbyte.notMem rfl, by decide,
        hindex.notMem rfl⟩
      rcases hmark with rfl | rfl <;> decide
  | sized hletter hsize hbyte =>
      simp only [List.mem_cons, not_or]
      exact ⟨by decide, hletter.ne_colon.symm, hsize.ne_colon.symm, hbyte.notMem rfl⟩
  | linkedInput => decide
  | linkedOutput => decide

/-- **Reading is the grammar**: what is read, and what is said of it, is what is spelled. -/
theorem read_iff {location : Option Location} {types : List DataType} :
    (read text = .ok element ∧ element.area = area ∧ element.location? = location ∧
      element.accepts = types) ↔
        Spells (text.map Char.toUpper) element area location types := by
  constructor
  · rintro ⟨h, rfl, rfl, rfl⟩
    exact spells_of_read h
  · intro h
    obtain ⟨spelling, hread, hresolve⟩ := exists_spelling_of_spells h
    refine ⟨?_, h.traits_eq⟩
    rw [read, hread]
    exact hresolve

/-! ## Elements of the grammar -/

/-- The elements that the grammar can name. -/
def IsValid : Beckhoff → Prop
  | bit _ byte index => byte ≤ 65535 ∧ index ≤ 7
  | sized _ _ byte => byte ≤ 65535
  | linked _ => True

theorem Spells.isValid {location : Option Location} {types : List DataType}
    (h : Spells text element area location types) : element.IsValid := by
  cases h with
  | bit hletter hmark hbyte hindex => exact ⟨hbyte.le_greatest, hindex.le_greatest⟩
  | sized hletter hsize hbyte => exact hbyte.le_greatest
  | linkedInput => trivial
  | linkedOutput => trivial

/-! ## Characters of a spelling -/

theorem canonical_areaLetter (area : Area) : Canonical (areaLetter area) := by
  cases area <;> decide

theorem canonical_render (address : Beckhoff) : ∀ c ∈ address.render, Canonical c := by
  cases address with
  | bit area byte index =>
      simp only [render, List.cons_append, List.nil_append, List.forall_mem_cons,
        List.forall_mem_append]
      exact ⟨by decide, canonical_areaLetter area, by decide, canonical_decimal byte, by decide,
        canonical_decimal index⟩
  | sized area size byte =>
      simp only [render, List.cons_append, List.nil_append, List.forall_mem_cons]
      exact ⟨by decide, canonical_areaLetter area, canonical_letter size, canonical_decimal byte⟩
  | linked side =>
      simp only [render, List.forall_mem_cons]
      exact ⟨by decide, canonical_areaLetter side.area, by decide, List.forall_mem_nil _⟩

/-! ## Canonical spellings -/

theorem isAreaLetter_areaLetter (area : Area) : IsAreaLetter (areaLetter area) area := by
  cases area <;> constructor

/-- The canonical spelling is a spelling. -/
theorem spells_render (hvalid : element.IsValid) :
    Spells element.render element element.area element.location? element.accepts := by
  cases element with
  | bit area byte index =>
      obtain ⟨hbyte, hindex⟩ := hvalid
      exact .bit (isAreaLetter_areaLetter area) (.inr rfl)
        (writes_decimal (by decide) (by decide) (Nat.zero_le _) hbyte)
        (writes_decimal (by decide) (by decide) (Nat.zero_le _) hindex)
  | sized area size byte =>
      exact .sized (isAreaLetter_areaLetter area) (isSizeLetter_letter size)
        (writes_decimal (by decide) (by decide) (Nat.zero_le _) hvalid)
  | linked side =>
      cases side with
      | input => exact .linkedInput
      | output => exact .linkedOutput

end Beckhoff

end PlcTags.Address
