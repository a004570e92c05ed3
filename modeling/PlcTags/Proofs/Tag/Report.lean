import PlcTags.Proofs.Tag.Validation

/-!
# Reports of tags

A tag that is dropped on its way to the store is reported by an error with its name, in
whatever case (`Reports`).  Validation reports the tags that it drops
(`reports_batchIssues`), and keeps all that the others say but the spelling of their
addresses (`says_of_accepted?`).

Of several items with one key at most one can be what is stored in the end.  An item is
therefore accounted for if it is reported, or if it is alone with its key and its tag is
stored; it is enough to account for the tags that the items come to
(`reported_or_alone`).
-/

namespace PlcTags

/-! ## Errors that name a tag -/

/-- An error among the problems names a tag with this key. -/
def Reports (problems : List Diagnostic) (key : String) : Prop :=
  ∃ problem ∈ problems, problem.isError = true ∧
    ∃ name, problem.tag = some name ∧ nameKey name = key

theorem Reports.mono {problems more : List Diagnostic} {key : String} (h : Reports problems key)
    (hmore : problems ⊆ more) : Reports more key := by
  obtain ⟨problem, hproblem, hnames⟩ := h
  exact ⟨problem, hmore hproblem, hnames⟩

theorem reports_of_mem {problems : List Diagnostic} {problem : Diagnostic} {name : String}
    (hmem : problem ∈ problems) (herror : problem.isError = true)
    (htag : problem.tag = some name) : Reports problems (nameKey name) :=
  ⟨problem, hmem, herror, name, htag, rfl⟩

/-! ## Validation -/

/-- What is stored for an address that is written like this: its canonical spelling, or
nothing for nothing. -/
def Address.IsSpelling (vendor : Vendor) (written stored : String) : Prop :=
  (Text.isAllBlank written = true ∧ stored = "") ∨
    ∃ address, Address.parse vendor written = .ok address ∧ address.normalized = stored

theorem Address.isSpelling_trimmed {vendor : Vendor} {written stored : String} :
    IsSpelling vendor (Text.trimmed written) stored ↔ IsSpelling vendor written stored := by
  unfold IsSpelling
  rw [Text.isAllBlank_trimmed, parse_trimmed]

namespace Tag

/-- The tag as it may be stored, if it may be. -/
def accepted? (tag : Tag) : Option Tag :=
  if tag.prepare.isAccepted then some tag.prepare.tag else none

/-- What is stored says what a tag says, its address in the canonical spelling. -/
structure Says (stored tag : Tag) : Prop where
  dataType : stored.dataType = tag.dataType
  address : Address.IsSpelling tag.vendor tag.address stored.address
  scope : stored.scope = tag.scope
  defaultValue : stored.defaultValue = tag.defaultValue
  description : stored.description = tag.description
  vendor : stored.vendor = tag.vendor

variable {tag accepted : Tag}

theorem tag_of_mem_prepareAddress {issue : Diagnostic} (h : issue ∈ tag.prepareAddress.2) :
    issue.tag = some tag.name := by
  cases tag.addressCase with
  | blank hblank =>
      rw [prepareAddress_of_blank hblank] at h
      exact (of_mem_addressWarnings h).2
  | read hparse =>
      rw [prepareAddress_of_parse hparse] at h
      exact (of_mem_holdsIssues h).2
  | unread hfilled hparse =>
      rw [prepareAddress_of_fault hfilled hparse] at h
      rw [List.mem_singleton.mp h]

/-- Every problem that validation finds names the tag. -/
theorem tag_of_mem_issues {issue : Diagnostic} (h : issue ∈ tag.prepare.issues) :
    issue.tag = some tag.name := by
  rcases List.mem_append.mp h with hname | haddress
  · exact (of_mem_nameIssues hname).2.2
  · exact tag_of_mem_prepareAddress haddress

theorem says_prepareAddress (h : tag.AddressHolds) : tag.prepareAddress.1.Says tag := by
  rcases h with hblank | ⟨address, hparse, -⟩
  · rw [prepareAddress_of_blank (hasAddress_eq_false_iff.mpr hblank)]
    exact ⟨rfl, .inl ⟨hblank, rfl⟩, rfl, rfl, rfl, rfl⟩
  · rw [prepareAddress_of_parse hparse]
    exact ⟨rfl, .inr ⟨address, hparse, rfl⟩, rfl, rfl, rfl, rfl⟩

/-- An accepted tag has kept its name and what it says. -/
theorem says_of_accepted? (h : tag.accepted? = some accepted) :
    accepted.key = tag.key ∧ accepted.Says tag := by
  simp only [accepted?, Option.ite_none_right_eq_some, Option.some.injEq] at h
  obtain ⟨haccepted, rfl⟩ := h
  exact ⟨congrArg nameKey tag.name_prepareAddress,
    says_prepareAddress (isAccepted_prepare_iff.mp haccepted).2⟩

/-- A tag that may not be stored has an error that says why. -/
theorem exists_error_of_accepted? (h : tag.accepted? = none) :
    ∃ issue ∈ tag.prepare.issues, issue.isError = true := by
  simp only [accepted?, ite_eq_right_iff, reduceCtorEq, imp_false, PreparedTag.isAccepted,
    Bool.not_eq_true', Bool.not_eq_false, List.any_eq_true] at h
  exact h

end Tag

theorem acceptedTags_eq_filterMap (batch : List Tag) :
    acceptedTags batch = batch.filterMap Tag.accepted? := by
  induction batch with
  | nil => rfl
  | cons tag rest ih =>
      have hrest : acceptedTags (tag :: rest) =
          tag.accepted?.toList ++ acceptedTags rest := by
        unfold acceptedTags Tag.accepted?
        rw [List.map_cons, List.filter_cons]
        split <;> rfl
      rw [hrest, ih, List.filterMap_cons]
      cases tag.accepted? <;> rfl

theorem reports_batchIssues {batch : List Tag} {tag : Tag} (htag : tag ∈ batch)
    (hdropped : tag.accepted? = none) : Reports (batchIssues batch) tag.key := by
  obtain ⟨issue, hissue, herror⟩ := Tag.exists_error_of_accepted? hdropped
  refine reports_of_mem ?_ herror (Tag.tag_of_mem_issues hissue)
  exact List.mem_flatMap.mpr ⟨tag.prepare, List.mem_map.mpr ⟨tag, htag, rfl⟩, hissue⟩

/-! ## Items and their tags -/

section

variable {Item : Type} {key : Item → String} {pick : Item → Option Tag} {items : List Item}

/-- The item is the only one with its key. -/
def IsAlone (key : Item → String) (items : List Item) (item : Item) : Prop :=
  items.filter (fun other => key other == key item) = [item]

theorem IsAlone.snoc {item last : Item} (h : IsAlone key items item) (hne : key last ≠ key item) :
    IsAlone key (items ++ [last]) item := by
  unfold IsAlone at h ⊢
  rw [List.filter_append, h, List.filter_cons_of_neg (by simpa using hne)]
  rfl

theorem isAlone_snoc_self {last : Item} (h : ∀ item ∈ items, key item ≠ key last) :
    IsAlone key (items ++ [last]) last := by
  have hnone : items.filter (key · == key last) = [] :=
    List.filter_eq_nil_iff.mpr fun item hitem => by simpa using h item hitem
  unfold IsAlone
  rw [List.filter_append, hnone, List.filter_cons_of_pos (by simp)]
  rfl

/-- Items that are picked have tags with the same keys, so those with one key can be
picked out before or after. -/
theorem filter_filterMap_key (hkey : ∀ item ∈ items, ∀ tag, pick item = some tag →
    tag.key = key item) (name : String) :
    (items.filterMap pick).filter (·.key == name) =
      (items.filter (key · == name)).filterMap pick := by
  induction items with
  | nil => rfl
  | cons item rest ih =>
      have hrest := ih fun other hother => hkey other (List.mem_cons_of_mem _ hother)
      cases hpick : pick item with
      | none =>
          rw [List.filterMap_cons_none hpick, hrest, List.filter_cons]
          split
          · rw [List.filterMap_cons_none hpick]
          · rfl
      | some tag =>
          have htag := hkey item List.mem_cons_self tag hpick
          rw [List.filterMap_cons_some hpick, List.filter_cons, List.filter_cons, htag, hrest]
          split
          · rw [List.filterMap_cons_some hpick]
          · rfl

/-- If all items of a list are picked, there is one for each tag. -/
theorem eq_singleton_of_filterMap {item : Item} {tag : Tag} (hitem : item ∈ items)
    (hall : ∀ other ∈ items, pick other ≠ none) (hone : items.filterMap pick = [tag]) :
    items = [item] := by
  obtain ⟨first, rest, rfl⟩ := List.exists_cons_of_ne_nil (List.ne_nil_of_mem hitem)
  obtain ⟨found, hfound⟩ := Option.ne_none_iff_exists'.mp (hall first List.mem_cons_self)
  rw [List.filterMap_cons_some hfound] at hone
  have hrest := List.filterMap_eq_nil_iff.mp (List.cons.inj hone).2
  obtain rfl : rest = [] := by
    refine List.eq_nil_iff_forall_not_mem.mpr fun other hother => ?_
    exact hall other (List.mem_cons_of_mem _ hother) (hrest other hother)
  rw [List.mem_singleton.mp hitem]

/-- **Items are accounted for by their tags.**  If items without a tag are reported, and
tags are reported or alone, then each item is reported, or alone and has such a tag. -/
theorem reported_or_alone {problems : List Diagnostic} {Stored : Tag → Prop}
    (hkey : ∀ item ∈ items, ∀ tag, pick item = some tag → tag.key = key item)
    (hdropped : ∀ item ∈ items, pick item = none → Reports problems (key item))
    (hpicked : ∀ tag ∈ items.filterMap pick, Reports problems tag.key ∨
      (IsAlone Tag.key (items.filterMap pick) tag ∧ Stored tag)) :
    ∀ item ∈ items, Reports problems (key item) ∨
      (IsAlone key items item ∧ ∃ tag, pick item = some tag ∧ Stored tag) := by
  intro item hitem
  cases hpick : pick item with
  | none => exact .inl (hdropped item hitem hpick)
  | some tag =>
      have htag := hkey item hitem tag hpick
      rcases hpicked tag (List.mem_filterMap.mpr ⟨item, hitem, hpick⟩) with hreports |
        ⟨halone, hstored⟩
      · exact .inl (htag ▸ hreports)
      -- The tag is alone; what could still stand beside the item was dropped and reported.
      by_cases hall : ∀ other ∈ items.filter (key · == key item), pick other ≠ none
      · refine .inr ⟨?_, tag, rfl, hstored⟩
        unfold IsAlone at halone
        rw [htag, filter_filterMap_key hkey] at halone
        exact eq_singleton_of_filterMap (List.mem_filter.mpr ⟨hitem, beq_self_eq_true _⟩)
          hall halone
      · left
        simp only [Classical.not_forall, Decidable.not_not] at hall
        obtain ⟨other, hother, hnone⟩ := hall
        obtain ⟨hmem, hsame⟩ := List.mem_filter.mp hother
        rw [← beq_iff_eq.mp hsame]
        exact hdropped other hmem hnone

end

end PlcTags
