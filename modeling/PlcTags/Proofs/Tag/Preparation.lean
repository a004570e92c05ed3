import PlcTags.Proofs.Address.Grammar
import PlcTags.Tag.Prepare

/-!
# What validation does to a tag

Validation leaves the name alone.  For the address there are three cases (`AddressCase`):
there are blanks only, and they are dropped; it names an element, whose canonical spelling
is put in its place and decides on the category, unless that is fixed; or it cannot be read,
and the tag stays as it is.

Each case leads back to itself, because a canonical spelling names the same element and an
inferred category is never fixed.  So validation has nothing to change, and no other problems
to find, in what it has been through once (`prepare_prepare`).  A tag is accepted exactly if
its vendor admits the name and the address is blank or can hold the type
(`isAccepted_prepare_iff`).
-/

namespace PlcTags

namespace Tag

variable {tag : Tag} {address : Address}

/-! ## What an address says -/

/-- The area of the address, if it names anything. -/
def area? (tag : Tag) : Option Area :=
  (Address.parse tag.vendor tag.address).toOption.map Address.area

theorem area?_of_parse (h : Address.parse tag.vendor tag.address = .ok address) :
    tag.area? = some address.area := by
  rw [area?, h]
  rfl

/-- Blanks are no address. -/
theorem area?_of_isAllBlank (h : Text.isAllBlank tag.address = true) : tag.area? = none := by
  rw [area?, Address.parse_of_isAllBlank h]
  rfl

/-- The types that the address can hold, if it names anything. -/
def types? (tag : Tag) : Option (List DataType) :=
  (Address.parse tag.vendor tag.address).toOption.map Address.accepts

theorem types?_of_parse (h : Address.parse tag.vendor tag.address = .ok address) :
    tag.types? = some address.accepts := by
  rw [types?, h]
  rfl

theorem types?_of_isAllBlank (h : Text.isAllBlank tag.address = true) : tag.types? = none := by
  rw [types?, Address.parse_of_isAllBlank h]
  rfl

theorem hasAddress_eq_false_iff :
    tag.hasAddress = false ↔ Text.isAllBlank tag.address = true := by
  rw [hasAddress, Bool.not_eq_false']

theorem hasAddress_of_empty (hempty : tag.address = "") : tag.hasAddress = false :=
  hasAddress_eq_false_iff.mpr (Text.isAllBlank_of_empty hempty)

theorem hasAddress_of_parse (h : Address.parse tag.vendor tag.address = .ok address) :
    tag.hasAddress = true := by
  rw [hasAddress, Address.isAllBlank_of_parse h]
  rfl

/-! ## Categories -/

theorem isFixed_iff {category : Category} :
    category.isFixed = true ↔ category = .temp ∨ category = .constant := by
  cases category <;> decide

theorem isFixed_infer (scope : Scope) (area : Option Area) :
    (Category.infer scope area).isFixed = false := by
  cases area with
  | none => cases scope <;> rfl
  | some area => cases area <;> rfl

/-! ## The three cases -/

/-- What stands in the place of the address. -/
inductive AddressCase (tag : Tag) : Prop
  | blank (hblank : tag.hasAddress = false)
  | read {address : Address} (hparse : Address.parse tag.vendor tag.address = .ok address)
  | unread {fault : Address.Error} (hfilled : tag.hasAddress = true)
      (hparse : Address.parse tag.vendor tag.address = .error fault)

theorem addressCase (tag : Tag) : tag.AddressCase := by
  cases hfilled : tag.hasAddress with
  | false => exact .blank hfilled
  | true =>
      cases hparse : Address.parse tag.vendor tag.address with
      | ok address => exact .read hparse
      | error fault => exact .unread hfilled hparse

/-- The warning that a wired tag without an address is worth. -/
def addressWarnings (tag : Tag) : List Diagnostic :=
  if !tag.hasAddress && tag.scope.isWired then
    [{ severity := .warning, code := .addressRequired, tag := some tag.name,
       message := "address required" }]
  else []

theorem prepareAddress_of_blank (hblank : tag.hasAddress = false) :
    tag.prepareAddress = ({ tag with address := "" }, tag.addressWarnings) := by
  rw [prepareAddress, addressWarnings, hblank]
  rfl

theorem prepareAddress_of_parse (hparse : Address.parse tag.vendor tag.address = .ok address) :
    tag.prepareAddress = (tag.withAddress address, tag.holdsIssues address) := by
  rw [prepareAddress, hasAddress_of_parse hparse, hparse]
  rfl

theorem prepareAddress_of_fault {fault : Address.Error} (hfilled : tag.hasAddress = true)
    (hparse : Address.parse tag.vendor tag.address = .error fault) :
    tag.prepareAddress = (tag,
      [{ severity := .error, code := .invalidAddress, tag := some tag.name,
         message := fault.message }]) := by
  rw [prepareAddress, hfilled, hparse]
  rfl

/-- The name and the address are looked at apart from each other. -/
theorem prepare_eq (tag : Tag) :
    tag.prepare = ⟨tag.prepareAddress.1, tag.nameIssues ++ tag.prepareAddress.2⟩ := rfl

/-! ## What is changed -/

/-- Only the address and the category are touched. -/
theorem prepareAddress_eq (tag : Tag) :
    tag.prepareAddress.1 = { tag with
      address := tag.prepareAddress.1.address, category := tag.prepareAddress.1.category } := by
  cases tag.addressCase with
  | blank hblank => rw [prepareAddress_of_blank hblank]
  | read hparse =>
      rw [prepareAddress_of_parse hparse]
      rfl
  | unread hfilled hparse => rw [prepareAddress_of_fault hfilled hparse]

theorem name_prepareAddress (tag : Tag) : tag.prepareAddress.1.name = tag.name := by
  rw [prepareAddress_eq]

/-- A fixed category stays. -/
theorem category_withAddress_of_isFixed (address : Address) (hfixed : tag.category.isFixed = true) :
    (tag.withAddress address).category = tag.category :=
  if_pos hfixed

theorem category_withAddress_of_not_isFixed (address : Address)
    (hfixed : tag.category.isFixed = false) :
    (tag.withAddress address).category = Category.infer tag.scope (some address.area) :=
  if_neg (by rw [hfixed]; exact Bool.false_ne_true)

/-- The category only changes to what an address says, and only if it is not fixed. -/
theorem category_prepareAddress (tag : Tag) :
    tag.prepareAddress.1.category = tag.category ∨
      tag.category.isFixed = false ∧
        ∃ address, Address.parse tag.vendor tag.address = .ok address ∧
          tag.prepareAddress.1.category = Category.infer tag.scope (some address.area) := by
  cases tag.addressCase with
  | blank hblank =>
      rw [prepareAddress_of_blank hblank]
      exact .inl rfl
  | @read address hparse =>
      rw [prepareAddress_of_parse hparse]
      cases hfixed : tag.category.isFixed with
      | true => exact .inl (category_withAddress_of_isFixed address hfixed)
      | false =>
          exact .inr ⟨rfl, address, hparse, category_withAddress_of_not_isFixed address hfixed⟩
  | unread hfilled hparse =>
      rw [prepareAddress_of_fault hfilled hparse]
      exact .inl rfl

/-- The area is what it was: blanks have none, and a canonical spelling has the same. -/
theorem area?_prepareAddress (tag : Tag) : tag.prepareAddress.1.area? = tag.area? := by
  cases tag.addressCase with
  | blank hblank =>
      have hempty : Text.isAllBlank ({ tag with address := "" } : Tag).address = true := rfl
      rw [prepareAddress_of_blank hblank, area?_of_isAllBlank hempty,
        area?_of_isAllBlank (hasAddress_eq_false_iff.mp hblank)]
  | @read address hparse =>
      have hcanonical : Address.parse (tag.withAddress address).vendor
          (tag.withAddress address).address = .ok address := Address.parse_normalized hparse
      rw [prepareAddress_of_parse hparse, area?_of_parse hcanonical, area?_of_parse hparse]
  | unread hfilled hparse => rw [prepareAddress_of_fault hfilled hparse]

/-- A category that agrees with the scope and the address already stays. -/
theorem category_prepareAddress_of_inferred
    (hcategory : tag.category = Category.infer tag.scope tag.area?) :
    tag.prepareAddress.1.category = tag.category := by
  rcases tag.category_prepareAddress with hsame | ⟨-, address, hparse, hinferred⟩
  · exact hsame
  · rw [hinferred, hcategory, area?_of_parse hparse]

/-! ## A second validation -/

theorem withAddress_eq_self (hsame : address.normalized = tag.address)
    (hcategory : tag.category.isFixed = true ∨
      tag.category = Category.infer tag.scope (some address.area)) :
    tag.withAddress address = tag := by
  have hkept : (tag.withAddress address).category = tag.category := by
    rcases hcategory with hfixed | hinferred
    · exact category_withAddress_of_isFixed address hfixed
    · have hfixed : tag.category.isFixed = false := by rw [hinferred, isFixed_infer]
      exact (category_withAddress_of_not_isFixed address hfixed).trans hinferred.symm
  calc tag.withAddress address
      = { tag with address := address.normalized, category := (tag.withAddress address).category } :=
        rfl
    _ = tag := by rw [hsame, hkept]

theorem withAddress_withAddress (tag : Tag) (address : Address) :
    (tag.withAddress address).withAddress address = tag.withAddress address := by
  refine withAddress_eq_self rfl ?_
  cases hfixed : tag.category.isFixed with
  | true => exact .inl ((congrArg _ (category_withAddress_of_isFixed address hfixed)).trans hfixed)
  | false => exact .inr (category_withAddress_of_not_isFixed address hfixed)

theorem prepareAddress_prepareAddress (tag : Tag) :
    tag.prepareAddress.1.prepareAddress = tag.prepareAddress := by
  cases tag.addressCase with
  | blank hblank =>
      rw [prepareAddress_of_blank hblank]
      have hempty : ({ tag with address := "" } : Tag).hasAddress = false := hasAddress_of_empty rfl
      rw [prepareAddress_of_blank hempty, addressWarnings, addressWarnings, hempty, hblank]
  | @read address hparse =>
      rw [prepareAddress_of_parse hparse]
      -- The problem repeats the canonical spelling, not the one that was given.
      have hcanonical : Address.parse (tag.withAddress address).vendor
          (tag.withAddress address).address = .ok address := Address.parse_normalized hparse
      rw [prepareAddress_of_parse hcanonical, withAddress_withAddress]
      rfl
  | unread hfilled hparse =>
      have hsame : tag.prepareAddress.1 = tag := by
        rw [prepareAddress_of_fault hfilled hparse]
      rw [hsame]

/-- Validation finds nothing new, and nothing to change, in what it has been through. -/
theorem prepare_prepare (tag : Tag) : tag.prepare.tag.prepare = tag.prepare := by
  have hname : tag.prepareAddress.1.nameIssues = tag.nameIssues := by
    rw [prepareAddress_eq]
    rfl
  have htag : tag.prepare.tag = tag.prepareAddress.1 := rfl
  rw [htag, prepare_eq, prepareAddress_prepareAddress, hname, ← prepare_eq]

/-! ## What is accepted -/

variable {issue : Diagnostic}

theorem of_mem_nameIssues (h : issue ∈ tag.nameIssues) :
    issue.isError = true ∧ issue.code = .invalidName ∧ issue.tag = some tag.name := by
  unfold nameIssues at h
  split at h
  · cases h
  · obtain rfl := List.mem_singleton.mp h
    exact ⟨rfl, rfl, rfl⟩

theorem of_mem_holdsIssues (h : issue ∈ tag.holdsIssues address) :
    issue.isError = true ∧ issue.tag = some tag.name := by
  unfold holdsIssues at h
  split at h
  · cases h
  · obtain rfl := List.mem_singleton.mp h
    exact ⟨rfl, rfl⟩

theorem of_mem_addressWarnings (h : issue ∈ tag.addressWarnings) :
    issue.isError = false ∧ issue.tag = some tag.name := by
  unfold addressWarnings at h
  split at h
  · obtain rfl := List.mem_singleton.mp h
    exact ⟨rfl, rfl⟩
  · cases h

/-- Of errors alone, none is found only if nothing is found. -/
theorem forall_isError_eq_false_iff {issues : List Diagnostic}
    (herrors : ∀ issue ∈ issues, issue.isError = true) :
    (∀ issue ∈ issues, issue.isError = false) ↔ issues = [] := by
  constructor
  · intro hnone
    refine List.eq_nil_iff_forall_not_mem.mpr fun issue hissue => ?_
    have hfound := herrors issue hissue
    rw [hnone issue hissue] at hfound
    cases hfound
  · rintro rfl
    exact List.forall_mem_nil _

theorem nameIssues_eq_nil_iff : tag.nameIssues = [] ↔ tag.vendor.admitsName tag.name = true := by
  unfold nameIssues
  split
  · rename_i hadmits
    exact iff_of_true rfl hadmits
  · rename_i hadmits
    exact iff_of_false (List.cons_ne_nil _ _) hadmits

theorem holdsIssues_eq_nil_iff : tag.holdsIssues address = [] ↔ tag.dataType ∈ address.accepts := by
  unfold holdsIssues
  split
  · rename_i hholds
    exact iff_of_true rfl hholds
  · rename_i hholds
    exact iff_of_false (List.cons_ne_nil _ _) hholds

/-- There is no address, or one that can hold the type. -/
def AddressHolds (tag : Tag) : Prop :=
  Text.isAllBlank tag.address = true ∨
    ∃ address, Address.parse tag.vendor tag.address = .ok address ∧
      tag.dataType ∈ address.accepts

/-- Whatever else is found, it is no error unless the address does not hold. -/
theorem forall_isError_prepareAddress_iff :
    (∀ issue ∈ tag.prepareAddress.2, issue.isError = false) ↔ tag.AddressHolds := by
  cases tag.addressCase with
  | blank hblank =>
      rw [prepareAddress_of_blank hblank]
      exact iff_of_true (fun _ hissue => (of_mem_addressWarnings hissue).1)
        (.inl (hasAddress_eq_false_iff.mp hblank))
  | @read address hparse =>
      rw [prepareAddress_of_parse hparse]
      rw [forall_isError_eq_false_iff fun _ hissue => (of_mem_holdsIssues hissue).1,
        holdsIssues_eq_nil_iff]
      constructor
      · intro hholds
        exact .inr ⟨address, hparse, hholds⟩
      · rintro (hblank | ⟨other, hother, hholds⟩)
        · cases hblank.symm.trans (Address.isAllBlank_of_parse hparse)
        · obtain rfl := Except.ok.inj (hparse.symm.trans hother)
          exact hholds
  | unread hfilled hparse =>
      rw [prepareAddress_of_fault hfilled hparse]
      refine iff_of_false (fun hnone => ?_) ?_
      · cases hnone _ List.mem_cons_self
      · rintro (hblank | ⟨other, hother, -⟩)
        · rw [hasAddress_eq_false_iff.mpr hblank] at hfilled
          cases hfilled
        · cases hparse.symm.trans hother

theorem isAccepted_iff {prepared : PreparedTag} :
    prepared.isAccepted = true ↔ ∀ issue ∈ prepared.issues, issue.isError = false := by
  simp only [PreparedTag.isAccepted, Bool.not_eq_true', List.any_eq_false, Bool.not_eq_true]

theorem isAccepted_prepare_iff :
    tag.prepare.isAccepted = true ↔
      tag.vendor.admitsName tag.name = true ∧ tag.AddressHolds := by
  rw [isAccepted_iff, prepare_eq, List.forall_mem_append, forall_isError_prepareAddress_iff,
    forall_isError_eq_false_iff fun _ hissue => (of_mem_nameIssues hissue).1,
    nameIssues_eq_nil_iff]

/-! ## Tags that stay as they are -/

/-- There is no address, or it is the canonical spelling of an element that can hold the
type. -/
def AddressFits (tag : Tag) : Prop :=
  tag.address = "" ∨ ∃ address, Address.parse tag.vendor tag.address = .ok address ∧
    address.normalized = tag.address ∧ tag.dataType ∈ address.accepts

/-- Validation has nothing to change, and has nothing against the address. -/
structure IsPrepared (tag : Tag) : Prop where
  address : tag.AddressFits
  category : ∀ area, tag.area? = some area →
    tag.category.isFixed = true ∨ tag.category = Category.infer tag.scope (some area)

/-- An address that holds fits once it has been checked. -/
theorem AddressHolds.addressFits (h : tag.AddressHolds) : tag.prepareAddress.1.AddressFits := by
  rcases h with hblank | ⟨address, hparse, hholds⟩
  · rw [prepareAddress_of_blank (hasAddress_eq_false_iff.mpr hblank)]
    exact .inl rfl
  · rw [prepareAddress_of_parse hparse]
    exact .inr ⟨address, Address.parse_normalized hparse, rfl, hholds⟩

theorem AddressFits.addressHolds (h : tag.AddressFits) : tag.AddressHolds := by
  rcases h with hempty | ⟨address, hparse, -, hholds⟩
  · exact .inl (Text.isAllBlank_of_empty hempty)
  · exact .inr ⟨address, hparse, hholds⟩

/-- Only the name can still be an error. -/
theorem IsPrepared.prepare_eq_self (h : tag.IsPrepared) :
    tag.prepare = ⟨tag, tag.nameIssues ++ tag.addressWarnings⟩ := by
  have hchecked : tag.prepareAddress = (tag, tag.addressWarnings) := by
    rcases h.address with hempty | ⟨address, hparse, hsame, hholds⟩
    · have hsame : { tag with address := "" } = tag := by
        rw [← hempty]
      rw [prepareAddress_of_blank (hasAddress_of_empty hempty), hsame]
    · have hwith := withAddress_eq_self hsame (h.category _ (area?_of_parse hparse))
      have hwarnings : tag.addressWarnings = [] := by
        rw [addressWarnings, hasAddress_of_parse hparse]
        rfl
      rw [prepareAddress_of_parse hparse, hwith, hwarnings, holdsIssues_eq_nil_iff.mpr hholds]
  rw [prepare, hchecked]

theorem IsPrepared.code_of_isError (h : tag.IsPrepared) :
    ∀ issue ∈ tag.prepare.issues, issue.isError = true → issue.code = .invalidName := by
  intro issue hissue herror
  rw [h.prepare_eq_self] at hissue
  rcases List.mem_append.mp hissue with hname | hwarning
  · exact (of_mem_nameIssues hname).2.1
  · rw [(of_mem_addressWarnings hwarning).1] at herror
    cases herror

theorem isPrepared_iff : tag.IsPrepared ↔ tag.AddressHolds ∧ tag.prepare.tag = tag := by
  constructor
  · intro h
    exact ⟨h.address.addressHolds, by rw [h.prepare_eq_self]⟩
  · rintro ⟨hblank | ⟨address, hparse, hholds⟩, hsame⟩
    · have hempty : { tag with address := "" } = tag := by
        rwa [prepare, prepareAddress_of_blank (hasAddress_eq_false_iff.mpr hblank)] at hsame
      refine ⟨.inl (congrArg Tag.address hempty).symm, fun area harea => ?_⟩
      rw [area?_of_isAllBlank hblank] at harea
      cases harea
    · have hwith : tag.withAddress address = tag := by
        rwa [prepare, prepareAddress_of_parse hparse] at hsame
      -- What does not change under the canonical spelling has that spelling already.
      refine ⟨.inr ⟨address, hparse, congrArg Tag.address hwith, hholds⟩, fun area harea => ?_⟩
      obtain rfl := Option.some.inj ((area?_of_parse hparse).symm.trans harea)
      cases hfixed : tag.category.isFixed with
      | true => exact .inl rfl
      | false =>
          right
          rw [← category_withAddress_of_not_isFixed address hfixed, hwith]

/-- **Validation is exact, and is done at once.**  Validating what it returns gives the same
tag and the same problems again.  It accepts a tag exactly if the vendor admits the name and
the address is blank or names an element that can hold the type.  Of the tag only the address
may change, and the category if it is not fixed and the address names an element. -/
theorem prepare_settles (tag : Tag) :
    tag.prepare.tag.prepare = tag.prepare ∧
    (tag.prepare.isAccepted = true ↔
      tag.vendor.admitsName tag.name = true ∧
        (Text.isAllBlank tag.address = true ∨
          ∃ address, Address.parse tag.vendor tag.address = .ok address ∧
            tag.dataType ∈ address.accepts)) ∧
    tag.prepare.tag = { tag with
      address := tag.prepare.tag.address, category := tag.prepare.tag.category } ∧
    (tag.prepare.tag.category = tag.category ∨
      tag.category ≠ .temp ∧ tag.category ≠ .constant ∧
        ∃ address, Address.parse tag.vendor tag.address = .ok address ∧
          tag.prepare.tag.category = Category.infer tag.scope (some address.area)) := by
  refine ⟨tag.prepare_prepare, isAccepted_prepare_iff, tag.prepareAddress_eq, ?_⟩
  rcases tag.category_prepareAddress with hsame | ⟨hfixed, hinferred⟩
  · exact .inl hsame
  · have hneither : ¬ (tag.category = .temp ∨ tag.category = .constant) := by
      rw [← isFixed_iff, hfixed]
      exact Bool.false_ne_true
    exact .inr ⟨fun htemp => hneither (.inl htemp), fun hconst => hneither (.inr hconst), hinferred⟩

end Tag

end PlcTags
