/-!
# Results and faults

A reading that goes on step by step gives a result only if each step does.  Each of
these lemmas takes such a result apart, so that no proof has to go through the faults.
-/

namespace PlcTags

variable {ε α β : Type}

theorem ok_bind (value : α) (next : α → Except ε β) :
    (Except.ok value >>= next) = next value := rfl

theorem exists_of_bind_eq_ok {result : Except ε α} {next : α → Except ε β} {value : β}
    (h : result >>= next = .ok value) : ∃ inner, result = .ok inner ∧ next inner = .ok value := by
  cases result with
  | error fault => cases h
  | ok inner => exact ⟨inner, rfl, h⟩

/-- What is made of a result is there only if the result is. -/
theorem exists_of_map_eq_ok {make : α → β} {result : Except ε α} {value : β}
    (h : make <$> result = .ok value) : ∃ inner, result = .ok inner ∧ make inner = value := by
  cases result with
  | error fault => cases h
  | ok inner => exact ⟨inner, rfl, Except.ok.inj h⟩

theorem map_eq_ok_iff {make : α → β} {result : Except ε α} {value : β} :
    make <$> result = .ok value ↔ ∃ inner, result = .ok inner ∧ make inner = value := by
  constructor
  · exact exists_of_map_eq_ok
  · rintro ⟨inner, rfl, rfl⟩
    rfl

theorem mapM_cons_eq_ok {read : α → Except ε β} {first : α} {rest : List α} {values : List β}
    (h : (first :: rest).mapM read = .ok values) :
    ∃ value others, read first = .ok value ∧ rest.mapM read = .ok others ∧
      values = value :: others := by
  rw [List.mapM_cons] at h
  obtain ⟨value, hvalue, h⟩ := exists_of_bind_eq_ok h
  obtain ⟨others, hothers, h⟩ := exists_of_bind_eq_ok h
  exact ⟨value, others, hvalue, hothers, (Except.ok.inj h).symm⟩

/-- Reading one by one stops at the first item that is refused. -/
theorem mapM_eq_of_refuses {read : α → Except ε β} {refuses : α → Bool} {fault : α → ε}
    {value : α → β}
    (h : ∀ item, read item = if refuses item then .error (fault item) else .ok (value item))
    (items : List α) :
    items.mapM read =
      match items.find? refuses with
      | some item => .error (fault item)
      | none => .ok (items.map value) := by
  induction items with
  | nil => rfl
  | cons item items ih =>
      rw [List.mapM_cons, h, ih, List.find?_cons]
      cases refuses item with
      | true => rfl
      | false =>
          rw [if_neg Bool.false_ne_true, ok_bind]
          cases items.find? refuses <;> rfl

theorem eq_ok_of_toOption {result : Except ε α} {value : α} (h : result.toOption = some value) :
    result = .ok value := by
  cases result with
  | error fault => cases h
  | ok found => rw [Option.some.inj h]

end PlcTags
