import PlcTags.Proofs.Address.Grammar

/-!
# Characters of an address

An address is made of letters, digits and a few marks (`isMade_of_parse`).  The only mark
that opens a comment anywhere, the slash, stands in Rockwell addresses alone, once, with
letters or digits up to the end behind it.
-/

namespace PlcTags.Address

open Text

/-! ## Characters -/

/-- An upper-case letter, or a digit. -/
def isUpperOrDigit (c : Char) : Bool :=
  c.isUpper || isAnyDigit c

/-- What may stand in an address in upper case, besides a slash. -/
def isAddressChar (c : Char) : Bool :=
  isUpperOrDigit c || c == '.' || c == ':' || c == '%' || c == '*'

/-- A text of characters of addresses, at the end of which letters or digits may follow a
slash. -/
def IsMade (text : List Char) : Prop :=
  ∃ front back, text = front ++ back ∧ (∀ c ∈ front, isAddressChar c = true) ∧
    (back = [] ∨ ∃ tail, back = '/' :: tail ∧ ∀ c ∈ tail, isUpperOrDigit c = true)

/-- A text that begins with something else than a colon. -/
def Begins (text : List Char) : Prop :=
  ∃ c rest, text = c :: rest ∧ c ≠ ':'

theorem isAddressChar_of_isUpperOrDigit {c : Char} (h : isUpperOrDigit c = true) :
    isAddressChar c = true := by
  simp [isAddressChar, h]

theorem isMade_nil : IsMade [] :=
  ⟨[], [], rfl, List.forall_mem_nil _, .inl rfl⟩

theorem IsMade.cons {c : Char} {text : List Char} (hc : isAddressChar c = true)
    (h : IsMade text) : IsMade (c :: text) := by
  obtain ⟨front, back, rfl, hfront, hback⟩ := h
  exact ⟨c :: front, back, rfl, List.forall_mem_cons.mpr ⟨hc, hfront⟩, hback⟩

theorem IsMade.append {digits text : List Char} (hdigits : ∀ c ∈ digits, isAddressChar c = true)
    (h : IsMade text) : IsMade (digits ++ text) := by
  induction digits with
  | nil => exact h
  | cons c digits ih =>
      obtain ⟨hc, hdigits⟩ := List.forall_mem_cons.mp hdigits
      exact (ih hdigits).cons hc

theorem isMade_of_forall {text : List Char} (h : ∀ c ∈ text, isUpperOrDigit c = true) :
    IsMade text :=
  ⟨text, [], (List.append_nil text).symm, fun c hc => isAddressChar_of_isUpperOrDigit (h c hc),
    .inl rfl⟩

theorem isMade_slash {text : List Char} (h : ∀ c ∈ text, isUpperOrDigit c = true) :
    IsMade ('/' :: text) :=
  ⟨[], '/' :: text, rfl, List.forall_mem_nil _, .inr ⟨text, rfl, h⟩⟩

/-! ## Numbers -/

variable {limit least greatest n : Nat} {digits text : List Char} {area : Area}
  {types : List DataType}

theorem Writes.isUpperOrDigit (h : Writes limit least greatest digits n) :
    ∀ c ∈ digits, isUpperOrDigit c = true := by
  intro c hc
  rw [Address.isUpperOrDigit, h.isAnyDigit c hc, Bool.or_true]

theorem Writes.isMade (h : Writes limit least greatest digits n) : IsMade digits :=
  isMade_of_forall h.isUpperOrDigit

theorem Writes.isMade_append (h : Writes limit least greatest digits n) (htext : IsMade text) :
    IsMade (digits ++ text) :=
  htext.append fun c hc => isAddressChar_of_isUpperOrDigit (h.isUpperOrDigit c hc)

/-! ## The three grammars -/

theorem IsSizeLetter.isAddressChar {letter : Char} {size : Size}
    (h : IsSizeLetter letter size types) : isAddressChar letter = true := by
  cases h <;> decide

namespace Rockwell

variable {element : Rockwell} {kind : FileKind} {part : Part}

/-- The names of parts are made of upper-case letters. -/
theorem all_isUpper_fileRule (kind : FileKind) :
    ∀ name ∈ (fileRule kind).flags ++ (fileRule kind).members,
      name.toList.all Char.isUpper = true := by
  cases kind <;> decide

theorem isUpperOrDigit_of_all {name : List Char} (h : name.all Char.isUpper = true) :
    ∀ c ∈ name, isUpperOrDigit c = true := by
  intro c hc
  rw [isUpperOrDigit, List.all_eq_true.mp h c hc, Bool.true_or]

theorem SpellsPart.isMade (h : SpellsPart (fileRule kind) text part types) : IsMade text := by
  cases h with
  | whole => exact isMade_nil
  | bit hlast hindex => exact isMade_slash hindex.isUpperOrDigit
  | flag hname =>
      have hupper := all_isUpper_fileRule kind _ (List.mem_append_left _ hname)
      exact isMade_slash (isUpperOrDigit_of_all hupper)
  | member hname =>
      have hupper := all_isUpper_fileRule kind _ (List.mem_append_right _ hname)
      exact (isMade_of_forall (isUpperOrDigit_of_all hupper)).cons (by decide)

theorem SpellsWord.isMade {slot word : Nat} {bit : Option Nat}
    (h : SpellsWord text slot word bit) : IsMade text := by
  obtain @⟨_, _, bitText, _, _, _, hslot, hword, hbit⟩ := h
  refine hslot.isMade_append ?_
  have hend : IsMade bitText := by
    cases hbit with
    | nothing => exact isMade_nil
    | number hindex => exact isMade_slash hindex.isUpperOrDigit
  cases hword with
  | nothing => exact hend
  | number hword => exact (hword.isMade_append hend).cons (by decide)

theorem Spells.isMade (h : Spells text element area types) : IsMade text ∧ Begins text := by
  cases h with
  | input h => exact ⟨(h.isMade.cons (by decide)).cons (by decide), _, _, rfl, by decide⟩
  | output h => exact ⟨(h.isMade.cons (by decide)).cons (by decide), _, _, rfl, by decide⟩
  | @file kind _ _ _ _ _ _ _ hnumber helement hpart =>
      have hrest := hnumber.isMade_append ((helement.isMade_append hpart.isMade).cons
        (c := ':') (by decide))
      cases kind with
      | string => exact ⟨(hrest.cons (by decide)).cons (by decide), _, _, rfl, by decide⟩
      | _ => exact ⟨hrest.cons (by decide), _, _, rfl, by decide⟩

end Rockwell

namespace Siemens

variable {element : Siemens}

theorem IsAreaLetter.isAddressChar {letter : Char} (h : IsAreaLetter letter area) :
    isAddressChar letter = true := by
  cases h <;> decide

theorem Spells.isMade (h : Spells text element area types) : IsMade text ∧ Begins text := by
  cases h with
  | bit hletter hbyte hindex =>
      exact ⟨(hbyte.isMade_append (hindex.isMade.cons (by decide))).cons hletter.isAddressChar,
        _, _, rfl, hletter.ne_colon⟩
  | sized hletter hsize hbyte =>
      exact ⟨(hbyte.isMade.cons hsize.isAddressChar).cons hletter.isAddressChar, _, _, rfl,
        hletter.ne_colon⟩
  | timer hnumber => exact ⟨hnumber.isMade.cons (by decide), _, _, rfl, by decide⟩
  | counter hletter hnumber =>
      rcases hletter with rfl | rfl <;>
        exact ⟨hnumber.isMade.cons (by decide), _, _, rfl, by decide⟩
  | blockBit hblock hbyte hindex =>
      have hrest := hbyte.isMade_append (hindex.isMade.cons (c := '.') (by decide))
      have hrest := hblock.isMade_append ((((hrest.cons (c := 'X') (by decide)).cons
        (c := 'B') (by decide)).cons (c := 'D') (by decide)).cons (c := '.') (by decide))
      exact ⟨(hrest.cons (by decide)).cons (by decide), _, _, rfl, by decide⟩
  | blockSized hsize hblock hbyte =>
      have hrest := hblock.isMade_append ((((hbyte.isMade.cons hsize.isAddressChar).cons
        (c := 'B') (by decide)).cons (c := 'D') (by decide)).cons (c := '.') (by decide))
      exact ⟨(hrest.cons (by decide)).cons (by decide), _, _, rfl, by decide⟩

theorem SpellsBehind.isMade {signs : Nat} (h : SpellsBehind signs text element area types) :
    IsMade text ∧ Begins text := by
  obtain ⟨body, rfl, h⟩ := h
  induction signs with
  | zero => exact h.isMade
  | succ signs ih => exact ⟨ih.1.cons (by decide), _, _, rfl, by decide⟩

end Siemens

namespace Beckhoff

theorem IsAreaLetter.isAddressChar {letter : Char} (h : IsAreaLetter letter area) :
    isAddressChar letter = true := by
  cases h <;> decide

theorem Spells.isMade {element : Beckhoff} {location : Option Location}
    (h : Spells text element area location types) : IsMade text ∧ Begins text := by
  cases h with
  | bit hletter hmark hbyte hindex =>
      have hrest := hbyte.isMade_append (hindex.isMade.cons (c := '.') (by decide))
      rcases hmark with rfl | rfl
      · exact ⟨(hrest.cons hletter.isAddressChar).cons (by decide), _, _, rfl, by decide⟩
      · exact ⟨((hrest.cons (by decide)).cons hletter.isAddressChar).cons (by decide), _, _, rfl,
          by decide⟩
  | sized hletter hsize hbyte =>
      exact ⟨((hbyte.isMade.cons hsize.isAddressChar).cons hletter.isAddressChar).cons (by decide),
        _, _, rfl, by decide⟩
  | linkedInput => exact ⟨((isMade_nil.cons (by decide)).cons (by decide)).cons (by decide),
      _, _, rfl, by decide⟩
  | linkedOutput => exact ⟨((isMade_nil.cons (by decide)).cons (by decide)).cons (by decide),
      _, _, rfl, by decide⟩

end Beckhoff

/-! ## Addresses of any vendor -/

theorem Spells.isMade {vendor : Vendor} {element : Address} (h : Spells vendor text element) :
    IsMade text ∧ Begins text := by
  cases h with
  | rockwell h => exact h.isMade
  | siemens h => exact h.isMade
  | beckhoff h => exact h.isMade

/-- **An address that is read** is made of characters of addresses, in upper case. -/
theorem isMade_of_parse {vendor : Vendor} {address : String} {element : Address}
    (h : parse vendor address = .ok element) (hblank : ∀ c ∈ address.toList, isBlank c = false) :
    IsMade (address.toList.map Char.toUpper) ∧ Begins (address.toList.map Char.toUpper) := by
  have hspells := parse_eq_ok_iff.mp h
  rw [spelled, trim_of_forall_not_blank hblank] at hspells
  exact hspells.isMade

end PlcTags.Address
