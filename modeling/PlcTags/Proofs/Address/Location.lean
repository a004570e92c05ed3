import PlcTags.Proofs.Address.Grammar

/-!
# Locations and addresses

An address that has a location says the same as its location: the area, and the types
that the element can hold (`agrees_of_location?`).  Every address that a vendor has for
a location is a valid one, and names this location (`location?_of_ofLocation?`).  For two
of the vendors this is any location; for Rockwell it is one within reach
(`exists_ofLocation?_iff`).

The way back from a location is unambiguous except in one place.  The files `B3` and
`N7` both lie in the memory image, word for word, but a bit of it is written as a bit of
`B3` and a word of it as a word of `N7` (`Rockwell.nameOf`).  The words of `B3` and the
bits of `N7` are therefore second names (`IsSecondary`), and a location leads from any
of its names to the primary one.
-/

namespace PlcTags.Address

/-- The elements of the image that the byte-addressed grammars can name. -/
def Location.IsValid (location : Location) : Prop :=
  location.byte ≤ 65535 ∧ ∀ index, location.width = .bit index → index ≤ 7

/-! ## Words of the image -/

namespace Rockwell

/-- The greatest word of an area that has an address. -/
def lastWord : Area → Nat
  | .input | .output => 30
  | .memory => 255

/-- The address that is written for a word of an area, or for one of its bits. -/
def nameOf (area : Area) (word : Nat) (bit : Option Nat) : Rockwell :=
  match area, bit with
  | .input, bit => wired .input word 0 bit
  | .output, bit => wired .output word 0 bit
  | .memory, some bit => file .binary 3 word (.bit bit)
  | .memory, none => file .integer 7 word .whole

/-- A location is this word of its area, or this bit of the word. -/
structure IsWord (location : Location) (word : Nat) (bit : Option Nat) : Prop where
  eq : location = wordLocation location.area word bit
  word_le : word ≤ lastWord location.area
  bit_le : ∀ index ∈ bit, index ≤ 15

theorem area_wordLocation (area : Area) (word : Nat) (bit : Option Nat) :
    (wordLocation area word bit).area = area := by
  cases bit <;> rfl

theorem isWord_wordLocation {area : Area} {word : Nat} {bit : Option Nat}
    (hword : word ≤ lastWord area) (hbit : ∀ index ∈ bit, index ≤ 15) :
    IsWord (wordLocation area word bit) word bit where
  eq := by rw [area_wordLocation]
  word_le := by rwa [area_wordLocation]
  bit_le := hbit

theorem lastWord_le (area : Area) : lastWord area ≤ 255 := by
  cases area <;> decide

theorem IsWord.isValid {location : Location} {word : Nat} {bit : Option Nat}
    (h : IsWord location word bit) : location.IsValid := by
  have hword := Nat.le_trans h.word_le (lastWord_le location.area)
  rw [h.eq]
  cases bit with
  | none => exact ⟨by simp only [wordLocation]; omega, fun index heq => by cases heq⟩
  | some bit =>
      have hbit := h.bit_le bit rfl
      refine ⟨by simp only [wordLocation]; omega, ?_⟩
      rintro index ⟨⟩
      omega

/-! ## From a word to its address and back -/

theorem location?_nameOf (area : Area) (word : Nat) (bit : Option Nat) :
    (nameOf area word bit).location? = some (wordLocation area word bit) := by
  cases area <;> cases bit <;> rfl

theorem isValid_nameOf {location : Location} {word : Nat} {bit : Option Nat}
    (h : IsWord location word bit) : (nameOf location.area word bit).IsValid := by
  have hword := h.word_le
  have hbit := h.bit_le
  generalize location.area = area at hword ⊢
  cases area with
  | input => exact ⟨hword, by decide, hbit⟩
  | output => exact ⟨hword, by decide, hbit⟩
  | memory =>
      cases bit with
      | none => exact ⟨by decide, by decide, hword, trivial⟩
      | some bit => exact ⟨by decide, by decide, hword, 15, rfl, hbit bit rfl⟩

/-- A bit of a word is a bit of one of its two bytes. -/
theorem byte_of_word {word bit : Nat} (hbit : bit ≤ 15) :
    (2 * word + bit / 8) / 2 = word ∧ bitOfWord (2 * word + bit / 8) (bit % 8) = bit := by
  unfold bitOfWord
  split <;> omega

theorem ofLocation?_of_isWord {location : Location} {word : Nat} {bit : Option Nat}
    (h : IsWord location word bit) :
    ofLocation? location = some (nameOf location.area word bit) := by
  obtain ⟨heq, hword, hbit⟩ := h
  obtain ⟨area, byte, width⟩ := location
  cases bit with
  | none =>
      obtain ⟨-, rfl, rfl⟩ := Location.mk.inj heq
      have hhalf : 2 * word / 2 = word := by omega
      have heven : 2 * word % 2 = 0 := by omega
      unfold ofLocation?
      dsimp only at hword ⊢
      rw [hhalf, heven]
      cases area <;> exact if_pos ⟨rfl, hword⟩
  | some bit =>
      obtain ⟨-, rfl, rfl⟩ := Location.mk.inj heq
      obtain ⟨hhalf, hindex⟩ := @byte_of_word word bit (hbit bit rfl)
      unfold ofLocation?
      dsimp only at hword ⊢
      rw [hhalf, hindex]
      cases area <;> exact if_pos hword

/-- A bit of a byte is a bit of the word around it. -/
theorem wordLocation_of_byte (area : Area) {byte bit : Nat} (hbit : bit ≤ 7) :
    wordLocation area (byte / 2) (some (bitOfWord byte bit)) = ⟨area, byte, .bit bit⟩ := by
  unfold wordLocation bitOfWord
  simp only [Location.mk.injEq, Width.bit.injEq, true_and]
  split <;> omega

theorem bitOfWord_le {byte bit : Nat} (hbit : bit ≤ 7) : bitOfWord byte bit ≤ 15 := by
  unfold bitOfWord
  split <;> omega

theorem exists_ofLocation?_bit {area : Area} {byte index : Nat} :
    (∃ address, ofLocation? ⟨area, byte, .bit index⟩ = some address) ↔
      byte / 2 ≤ lastWord area := by
  cases area <;> simp [ofLocation?, lastWord]

theorem exists_ofLocation?_word {area : Area} {byte : Nat} :
    (∃ address, ofLocation? ⟨area, byte, .word⟩ = some address) ↔
      byte % 2 = 0 ∧ byte / 2 ≤ lastWord area := by
  cases area <;> simp [ofLocation?, lastWord]

/-- Only words, and the bits of them, have an address. -/
theorem exists_isWord_of_ofLocation? {location : Location} {address : Rockwell}
    (hvalid : location.IsValid) (h : ofLocation? location = some address) :
    ∃ word bit, IsWord location word bit ∧ address = nameOf location.area word bit := by
  -- It is enough to find the word: the address is then known.
  suffices hword : ∃ word bit, IsWord location word bit by
    obtain ⟨word, bit, hword⟩ := hword
    rw [ofLocation?_of_isWord hword] at h
    exact ⟨word, bit, hword, (Option.some.inj h).symm⟩
  obtain ⟨area, byte, width⟩ := location
  cases width with
  | bit index =>
      have hindex : index ≤ 7 := hvalid.2 index rfl
      refine ⟨byte / 2, some (bitOfWord byte index), (wordLocation_of_byte area hindex).symm,
        exists_ofLocation?_bit.mp ⟨address, h⟩, ?_⟩
      rintro _ ⟨⟩
      exact bitOfWord_le hindex
  | word =>
      obtain ⟨heven, hhalf⟩ := exists_ofLocation?_word.mp ⟨address, h⟩
      refine ⟨byte / 2, none, ?_, hhalf, fun _ hindex => by cases hindex⟩
      have hdouble : 2 * (byte / 2) = byte := by omega
      simp only [wordLocation, hdouble]
  | byte => cases area <;> cases h
  | doubleWord => cases area <;> cases h

/-! ## Locations that have an address -/

/-- The locations within reach: bits, and words at even offsets, of the slots and of one file
of memory words. -/
inductive Reaches : Location → Prop
  | wiredBit {area : Area} {byte index : Nat} (harea : area ≠ .memory) (hbyte : byte ≤ 61) :
      Reaches ⟨area, byte, .bit index⟩
  | wiredWord {area : Area} {byte : Nat} (harea : area ≠ .memory) (hbyte : byte ≤ 60)
      (heven : byte % 2 = 0) : Reaches ⟨area, byte, .word⟩
  | memoryBit {byte index : Nat} (hbyte : byte ≤ 511) : Reaches ⟨.memory, byte, .bit index⟩
  | memoryWord {byte : Nat} (hbyte : byte ≤ 510) (heven : byte % 2 = 0) :
      Reaches ⟨.memory, byte, .word⟩

theorem lastWord_of_ne_memory {area : Area} (harea : area ≠ .memory) : lastWord area = 30 := by
  cases area with
  | input => rfl
  | output => rfl
  | memory => exact absurd rfl harea

theorem exists_ofLocation?_of_reaches {location : Location} (h : Reaches location) :
    ∃ address, ofLocation? location = some address := by
  cases h with
  | wiredBit harea hbyte =>
      rw [exists_ofLocation?_bit, lastWord_of_ne_memory harea]
      omega
  | wiredWord harea hbyte heven =>
      rw [exists_ofLocation?_word, lastWord_of_ne_memory harea]
      omega
  | memoryBit hbyte =>
      rw [exists_ofLocation?_bit, lastWord]
      omega
  | memoryWord hbyte heven =>
      rw [exists_ofLocation?_word, lastWord]
      omega

theorem reaches_of_ofLocation? {location : Location} {address : Rockwell}
    (h : ofLocation? location = some address) : Reaches location := by
  obtain ⟨area, byte, width⟩ := location
  cases width with
  | bit index =>
      have hlast := exists_ofLocation?_bit.mp ⟨address, h⟩
      by_cases harea : area = .memory
      · subst harea
        rw [lastWord] at hlast
        exact .memoryBit (by omega)
      · rw [lastWord_of_ne_memory harea] at hlast
        exact .wiredBit harea (by omega)
  | word =>
      obtain ⟨heven, hlast⟩ := exists_ofLocation?_word.mp ⟨address, h⟩
      by_cases harea : area = .memory
      · subst harea
        rw [lastWord] at hlast
        exact .memoryWord (by omega) heven
      · rw [lastWord_of_ne_memory harea] at hlast
        exact .wiredWord harea (by omega) heven
  | byte => cases area <;> cases h
  | doubleWord => cases area <;> cases h

/-! ## Second names -/

/-- The element lies in the memory image, which has another name for it. -/
def IsSecondary : Rockwell → Bool
  | file .binary 3 _ .whole => true
  | file .integer 7 _ (.bit _) => true
  | _ => false

/-- The name that is written for the element in the image. -/
def primary : Rockwell → Rockwell
  | file .binary 3 element .whole => file .integer 7 element .whole
  | file .integer 7 element (.bit index) => file .binary 3 element (.bit index)
  | address => address

theorem primary_eq_self_iff (address : Rockwell) :
    address.primary = address ↔ address.IsSecondary = false := by
  unfold primary IsSecondary
  split <;> simp

/-- The files of the memory image, and what of them lies in it. -/
theorem mapped_cases {kind : FileKind} {number element : Nat} {part : Part} {location : Location}
    (h : (file kind number element part).location? = some location) :
    (kind = .binary ∧ number = 3 ∨ kind = .integer ∧ number = 7) ∧
      (part = .whole ∧ location = wordLocation .memory element none ∨
        ∃ index, part = .bit index ∧ location = wordLocation .memory element (some index)) := by
  simp only [location?, Option.ite_none_right_eq_some] at h
  obtain ⟨hmapped, h⟩ := h
  refine ⟨by simpa [isMapped] using hmapped, ?_⟩
  cases part with
  | whole => exact .inl ⟨rfl, (Option.some.inj h).symm⟩
  | bit index => exact .inr ⟨index, rfl, (Option.some.inj h).symm⟩
  | flag name => cases h
  | member name => cases h

/-- The location of an address is a word of its area, or a bit of one, and says what the
element can hold. -/
theorem isWord_of_location? {address : Rockwell} {location : Location}
    (hvalid : address.IsValid) (h : address.location? = some location) :
    location.area = address.area ∧ location.width.accepts = address.accepts ∧
      ∃ word bit, IsWord location word bit ∧ address.primary = nameOf address.area word bit := by
  cases address with
  | wired side slot word bit =>
      obtain ⟨hslot, -, hbit⟩ := hvalid
      simp only [location?, Option.ite_none_right_eq_some] at h
      obtain ⟨rfl, h⟩ := h
      obtain rfl := Option.some.inj h
      have hlast : slot ≤ lastWord side.area := by
        cases side <;> exact hslot
      refine ⟨area_wordLocation _ _ _, ?_, slot, bit, isWord_wordLocation hlast hbit, ?_⟩
      · cases bit <;> rfl
      · cases side <;> rfl
  | file kind number element part =>
      obtain ⟨-, -, helement, hpart⟩ := hvalid
      obtain ⟨hfile, ⟨rfl, rfl⟩ | ⟨index, rfl, rfl⟩⟩ := mapped_cases h
      · refine ⟨rfl, ?_, element, none, isWord_wordLocation helement ?_, ?_⟩
        · rcases hfile with ⟨rfl, rfl⟩ | ⟨rfl, rfl⟩ <;> rfl
        · rintro _ ⟨⟩
        · rcases hfile with ⟨rfl, rfl⟩ | ⟨rfl, rfl⟩ <;> rfl
      · have hindex : index ≤ 15 := by
          obtain ⟨last, hlast, hindex⟩ := hpart
          rcases hfile with ⟨rfl, rfl⟩ | ⟨rfl, rfl⟩ <;> exact Option.some.inj hlast ▸ hindex
        refine ⟨rfl, rfl, element, some index, isWord_wordLocation helement ?_, ?_⟩
        · rintro _ ⟨⟩
          exact hindex
        · rcases hfile with ⟨rfl, rfl⟩ | ⟨rfl, rfl⟩ <;> rfl

end Rockwell

/-! ## Any vendor -/

/-- The element has another name, which is the one that is written for its location. -/
def IsSecondary : Address → Bool
  | rockwell address => address.IsSecondary
  | siemens _ | beckhoff _ => false

/-- The name that is written for the location of the element, if it has one. -/
def primary : Address → Address
  | rockwell address => rockwell address.primary
  | siemens address => siemens address
  | beckhoff address => beckhoff address

theorem primary_eq_self_iff (address : Address) :
    address.primary = address ↔ address.IsSecondary = false := by
  cases address with
  | rockwell address => simp [primary, IsSecondary, Rockwell.primary_eq_self_iff]
  | siemens address => simp [primary, IsSecondary]
  | beckhoff address => simp [primary, IsSecondary]

/-- An address says the same as a location. -/
structure Agrees (address : Address) (location : Location) : Prop where
  location? : address.location? = some location
  area : address.area = location.area
  accepts : address.accepts = location.width.accepts

/-- What a location says of any of its names, and the name that is written for it. -/
theorem agrees_of_location? {address : Address} {location : Location} (hvalid : address.IsValid)
    (h : address.location? = some location) :
    location.IsValid ∧ address.Agrees location ∧
      ofLocation? address.vendor location = some address.primary := by
  cases address with
  | rockwell address =>
      obtain ⟨harea, haccepts, word, bit, hword, hprimary⟩ :=
        Rockwell.isWord_of_location? hvalid h
      refine ⟨hword.isValid, ⟨h, harea.symm, haccepts.symm⟩, ?_⟩
      simp only [vendor, ofLocation?, primary, Rockwell.ofLocation?_of_isWord hword, hprimary,
        harea]
      rfl
  | siemens address =>
      cases address with
      | bit area byte index =>
          obtain rfl := Option.some.inj h
          refine ⟨⟨hvalid.1, ?_⟩, ⟨rfl, rfl, rfl⟩, rfl⟩
          rintro _ ⟨⟩
          exact hvalid.2
      | sized area size byte =>
          obtain rfl := Option.some.inj h
          refine ⟨⟨hvalid, ?_⟩, ⟨rfl, rfl, rfl⟩, ?_⟩
          · cases size <;> rintro _ ⟨⟩
          · cases size <;> rfl
      | timer number => cases h
      | counter number => cases h
      | blockBit block byte index => cases h
      | blockSized block size byte => cases h
  | beckhoff address =>
      cases address with
      | bit area byte index =>
          obtain rfl := Option.some.inj h
          refine ⟨⟨hvalid.1, ?_⟩, ⟨rfl, rfl, rfl⟩, rfl⟩
          rintro _ ⟨⟩
          exact hvalid.2
      | sized area size byte =>
          obtain rfl := Option.some.inj h
          refine ⟨⟨hvalid, ?_⟩, ⟨rfl, rfl, rfl⟩, ?_⟩
          · cases size <;> rintro _ ⟨⟩
          · cases size <;> rfl
      | linked side => cases h

/-- What a vendor writes for a location is valid, and names it. -/
theorem location?_of_ofLocation? {vendor : Vendor} {location : Location} {address : Address}
    (hvalid : location.IsValid) (h : ofLocation? vendor location = some address) :
    address.vendor = vendor ∧ address.IsValid ∧ address.location? = some location := by
  cases vendor with
  | rockwell =>
      obtain ⟨inner, hinner, rfl⟩ := Option.map_eq_some_iff.mp h
      obtain ⟨word, bit, hword, rfl⟩ := Rockwell.exists_isWord_of_ofLocation? hvalid hinner
      refine ⟨rfl, Rockwell.isValid_nameOf hword, ?_⟩
      simp only [Address.location?, Rockwell.location?_nameOf, ← hword.eq]
  | siemens =>
      obtain rfl := Option.some.inj h
      obtain ⟨area, byte, width⟩ := location
      obtain ⟨hbyte, hbit⟩ := hvalid
      cases width with
      | bit index => exact ⟨rfl, ⟨hbyte, hbit index rfl⟩, rfl⟩
      | byte => exact ⟨rfl, hbyte, rfl⟩
      | word => exact ⟨rfl, hbyte, rfl⟩
      | doubleWord => exact ⟨rfl, hbyte, rfl⟩
  | beckhoff =>
      obtain rfl := Option.some.inj h
      obtain ⟨area, byte, width⟩ := location
      obtain ⟨hbyte, hbit⟩ := hvalid
      cases width with
      | bit index => exact ⟨rfl, ⟨hbyte, hbit index rfl⟩, rfl⟩
      | byte => exact ⟨rfl, hbyte, rfl⟩
      | word => exact ⟨rfl, hbyte, rfl⟩
      | doubleWord => exact ⟨rfl, hbyte, rfl⟩

/-- The locations that a vendor has an address for. -/
def Reaches : Vendor → Location → Prop
  | .rockwell, location => Rockwell.Reaches location
  | .siemens, _ | .beckhoff, _ => True

theorem exists_ofLocation?_iff {vendor : Vendor} {location : Location} :
    (∃ address, ofLocation? vendor location = some address) ↔ Reaches vendor location := by
  cases vendor with
  | rockwell =>
      constructor
      · rintro ⟨address, h⟩
        obtain ⟨inner, hinner, -⟩ := Option.map_eq_some_iff.mp h
        exact Rockwell.reaches_of_ofLocation? hinner
      · intro h
        obtain ⟨inner, hinner⟩ := Rockwell.exists_ofLocation?_of_reaches h
        exact ⟨rockwell inner, Option.map_eq_some_iff.mpr ⟨inner, hinner, rfl⟩⟩
  | siemens => exact iff_of_true ⟨_, rfl⟩ trivial
  | beckhoff => exact iff_of_true ⟨_, rfl⟩ trivial

/-- The primary name is another spelling unless there is no other name. -/
theorem normalized_primary_eq_iff {address : Address} {location : Location}
    (hvalid : address.IsValid) (h : address.location? = some location) :
    address.primary.normalized = address.normalized ↔ address.IsSecondary = false := by
  obtain ⟨hlocation, -, hprimary⟩ := agrees_of_location? hvalid h
  obtain ⟨-, hprimaryValid, -⟩ := location?_of_ofLocation? hlocation hprimary
  rw [← primary_eq_self_iff]
  constructor
  · intro hsame
    exact eq_of_normalized_eq hprimaryValid hvalid hsame
  · intro hsame
    rw [hsame]

end PlcTags.Address
