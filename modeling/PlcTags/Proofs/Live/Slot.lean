import Mathlib.Tactic.ByContra
import PlcTags.Live.Slot

/-!
# Slots and their tokens

A slot knows which token is in it, and of every token that it has handed out whether it
is cancelled.  The two change separately, as whoever has a token may cancel it without
the slot.  They still agree (`Sole`): of all tokens only the latest may be live, and a
live one is in the slot.  What has been cancelled stays cancelled (`Grows`).

Each move keeps both, so they hold after any moves; main statement: `agrees_run`.  While
nobody cancels a token from outside, more holds: the token in the slot is live (`Tidy`).
-/

namespace PlcTags.Live.Slot

variable {slot : Slot} {token : Nat}

/-- Of all tokens that were handed out only the latest may be live; it is in the slot
then. -/
structure Sole (slot : Slot) : Prop where
  pending : ∀ {token}, slot.pending = some token → token + 1 = slot.cancelled.length
  others : ∀ {token}, token < slot.cancelled.length → slot.pending ≠ some token →
    slot.isCancelled token = true

/-- The token in the slot is live, and it is the latest; all others that were handed out
are cancelled. -/
structure Tidy (slot : Slot) : Prop where
  pending : ∀ {token}, slot.pending = some token →
    token + 1 = slot.cancelled.length ∧ slot.isCancelled token = false
  others : ∀ {token}, token < slot.cancelled.length → slot.pending ≠ some token →
    slot.isCancelled token = true

/-- What an earlier slot has handed out and cancelled is still known. -/
structure Grows (later slot : Slot) : Prop where
  length : slot.cancelled.length ≤ later.cancelled.length
  cancelled : ∀ {token}, slot.isCancelled token = true → later.isCancelled token = true

theorem Grows.refl (slot : Slot) : slot.Grows slot :=
  ⟨Nat.le_refl _, id⟩

theorem Grows.trans {first second third : Slot} (h : third.Grows second)
    (h' : second.Grows first) : third.Grows first :=
  ⟨Nat.le_trans h'.length h.length, fun hcancelled => h.cancelled (h'.cancelled hcancelled)⟩

theorem Tidy.sole (h : slot.Tidy) : slot.Sole where
  pending hpending := (h.pending hpending).1
  others := h.others

/-! ## Cancelling -/

theorem isCancelled_eq_true_iff : slot.isCancelled token = true ↔
    slot.cancelled[token]? = some true := by
  rw [isCancelled, List.getD_eq_getElem?_getD]
  cases slot.cancelled[token]? <;> simp

@[simp] theorem length_cancelToken (slot : Slot) (token : Nat) :
    (slot.cancelToken token).cancelled.length = slot.cancelled.length := by
  simp [cancelToken]

/-- A token that was handed out is cancelled afterwards. -/
theorem isCancelled_cancelToken_self (htoken : token < slot.cancelled.length) :
    (slot.cancelToken token).isCancelled token = true :=
  isCancelled_eq_true_iff.mpr (List.getElem?_set_self htoken)

theorem grows_cancelToken (slot : Slot) (other : Nat) : (slot.cancelToken other).Grows slot where
  length := Nat.le_of_eq (slot.length_cancelToken other).symm
  cancelled := by
    intro token hcancelled
    by_cases heq : other = token
    · subst heq
      obtain ⟨hlength, -⟩ :=
        List.getElem?_eq_some_iff.mp (isCancelled_eq_true_iff.mp hcancelled)
      exact isCancelled_cancelToken_self hlength
    · rw [isCancelled_eq_true_iff, cancelToken, List.getElem?_set_ne heq]
      exact isCancelled_eq_true_iff.mp hcancelled

@[simp] theorem pending_cancel (slot : Slot) : slot.cancel.pending = none := by
  unfold cancel
  split
  · rfl
  · assumption

@[simp] theorem length_cancel (slot : Slot) :
    slot.cancel.cancelled.length = slot.cancelled.length := by
  unfold cancel
  split
  · exact slot.length_cancelToken _
  · rfl

theorem grows_cancel (slot : Slot) : slot.cancel.Grows slot := by
  unfold cancel
  split
  · exact ⟨(slot.grows_cancelToken _).length, (slot.grows_cancelToken _).cancelled⟩
  · exact .refl slot

/-- Once the slot is empty, all tokens are cancelled. -/
theorem Sole.isCancelled_cancel (h : slot.Sole) (htoken : token < slot.cancelled.length) :
    slot.cancel.isCancelled token = true := by
  by_cases hpending : slot.pending = some token
  · have hcancel : slot.cancel.isCancelled token = (slot.cancelToken token).isCancelled token := by
      simp only [cancel, hpending, isCancelled]
    rw [hcancel, isCancelled_cancelToken_self htoken]
  · exact slot.grows_cancel.cancelled (h.others htoken hpending)

theorem Sole.cancel (h : slot.Sole) : slot.cancel.Sole where
  pending hpending := by simp at hpending
  others := by
    intro token htoken _
    rw [length_cancel] at htoken
    exact h.isCancelled_cancel htoken

theorem Tidy.cancel (h : slot.Tidy) : slot.cancel.Tidy where
  pending hpending := by simp at hpending
  others := h.sole.cancel.others

theorem grows_revoke (slot : Slot) : slot.revoke.Grows slot :=
  slot.grows_cancelToken _

/-- The slot keeps its token when that is cancelled from outside. -/
theorem Sole.revoke (h : slot.Sole) : slot.revoke.Sole where
  pending hpending := by
    rw [Slot.revoke, length_cancelToken]
    exact h.pending hpending
  others := by
    intro token htoken hpending
    rw [Slot.revoke, length_cancelToken] at htoken
    exact slot.grows_revoke.cancelled (h.others htoken hpending)

/-! ## Arming -/

theorem length_arm (slot : Slot) : slot.arm.cancelled.length = slot.cancelled.length + 1 := by
  simp [arm]

theorem isCancelled_arm_of_lt (htoken : token < slot.cancelled.length) :
    slot.arm.isCancelled token = slot.cancel.isCancelled token := by
  simp only [isCancelled, arm, List.getD_eq_getElem?_getD]
  rw [List.getElem?_append_left (by rwa [length_cancel])]

/-- The token that is handed out is live. -/
theorem isCancelled_arm_nextToken (slot : Slot) : slot.arm.isCancelled slot.nextToken = false := by
  simp only [isCancelled, arm, nextToken, List.getD_eq_getElem?_getD]
  rw [← slot.length_cancel, List.getElem?_concat_length]
  rfl

theorem Sole.arm (h : slot.Sole) : slot.arm.Sole where
  pending hpending := by
    obtain rfl := Option.some.inj hpending
    exact slot.length_arm.symm
  others := by
    intro token htoken hpending
    rw [length_arm] at htoken
    have hlt : token < slot.cancelled.length := by
      have hne : token ≠ slot.cancelled.length := fun heq => hpending (by rw [heq]; rfl)
      omega
    rw [isCancelled_arm_of_lt hlt]
    exact h.isCancelled_cancel hlt

theorem Tidy.arm (h : slot.Tidy) : slot.arm.Tidy where
  pending hpending := by
    refine ⟨h.sole.arm.pending hpending, ?_⟩
    obtain rfl := Option.some.inj hpending
    exact slot.isCancelled_arm_nextToken
  others := h.sole.arm.others

theorem grows_arm (slot : Slot) : slot.arm.Grows slot where
  length := by
    rw [length_arm]
    exact Nat.le_succ _
  cancelled := by
    intro token hcancelled
    obtain ⟨hlength, -⟩ :=
      List.getElem?_eq_some_iff.mp (isCancelled_eq_true_iff.mp hcancelled)
    rw [isCancelled_arm_of_lt hlength]
    exact slot.grows_cancel.cancelled hcancelled

theorem tidy_empty : Tidy {} where
  pending h := by cases h
  others h := by cases h

/-! ## Armed slots -/

/-- An armed slot has an edit in it. -/
theorem Tidy.isArmed_iff (h : slot.Tidy) : slot.isArmed = true ↔ slot.pending ≠ none := by
  unfold isArmed
  cases hpending : slot.pending with
  | none => simp
  | some token => simp [(h.pending hpending).2]

theorem isArmed_iff_exists : slot.isArmed = true ↔
    ∃ token, slot.pending = some token ∧ slot.isCancelled token = false := by
  simp [isArmed, Option.any_eq_true]

/-- A slot is armed as long as the latest token is live. -/
theorem Sole.isArmed_iff (h : slot.Sole) : slot.isArmed = true ↔
    ∃ token, token + 1 = slot.cancelled.length ∧ slot.isCancelled token = false := by
  rw [isArmed_iff_exists]
  constructor
  · rintro ⟨token, hpending, hlive⟩
    exact ⟨token, h.pending hpending, hlive⟩
  · rintro ⟨token, hlatest, hlive⟩
    refine ⟨token, ?_, hlive⟩
    by_contra hpending
    exact absurd (h.others (by omega) hpending) (by simp [hlive])

/-- All tokens but the latest are cancelled. -/
theorem Sole.isCancelled_of_earlier (h : slot.Sole) (htoken : token + 1 < slot.cancelled.length) :
    slot.isCancelled token = true := by
  refine h.others (by omega) ?_
  intro hpending
  have hlatest := h.pending hpending
  omega

/-- A live token is the latest. -/
theorem Sole.latest_of_live (h : slot.Sole) (htoken : token < slot.cancelled.length)
    (hlive : slot.isCancelled token = false) : token + 1 = slot.cancelled.length := by
  by_contra hearlier
  have hcancelled := h.isCancelled_of_earlier (show token + 1 < _ by omega)
  rw [hcancelled] at hlive
  cases hlive

theorem isArmed_arm (slot : Slot) : slot.arm.isArmed = true :=
  isArmed_iff_exists.mpr ⟨_, rfl, slot.isCancelled_arm_nextToken⟩

theorem isArmed_cancel (slot : Slot) : slot.cancel.isArmed = false := by
  simp [isArmed]

/-- No token is left in force when the latest is cancelled from outside. -/
theorem Sole.isArmed_revoke (h : slot.Sole) : slot.revoke.isArmed = false := by
  rw [Bool.eq_false_iff, ne_eq, h.revoke.isArmed_iff]
  rintro ⟨token, hlatest, hlive⟩
  rw [Slot.revoke, length_cancelToken] at hlatest
  have htoken : slot.nextToken - 1 = token := by
    rw [nextToken]
    omega
  have hcancelled : slot.revoke.isCancelled token = true := by
    rw [Slot.revoke, htoken]
    exact isCancelled_cancelToken_self (by omega)
  rw [hcancelled] at hlive
  cases hlive

/-! ## Any moves -/

theorem Sole.move (h : slot.Sole) (move : Move) : (slot.move move).Sole := by
  cases move with
  | arm => exact h.arm
  | cancel => exact h.cancel
  | revoke => exact h.revoke

theorem grows_move (slot : Slot) (move : Move) : (slot.move move).Grows slot := by
  cases move with
  | arm => exact slot.grows_arm
  | cancel => exact slot.grows_cancel
  | revoke => exact slot.grows_revoke

/-- Only arming hands out a token. -/
theorem length_move (slot : Slot) (move : Move) :
    (slot.move move).cancelled.length = slot.cancelled.length + [move].count .arm := by
  cases move with
  | arm => exact slot.length_arm
  | cancel => exact slot.length_cancel
  | revoke => exact slot.length_cancelToken _

theorem Sole.isArmed_move_iff (h : slot.Sole) (move : Move) :
    (slot.move move).isArmed = true ↔ move = .arm := by
  cases move with
  | arm => simp [Slot.move, isArmed_arm]
  | cancel => simp [Slot.move, isArmed_cancel]
  | revoke => simp [Slot.move, h.isArmed_revoke]

theorem run_concat (slot : Slot) (moves : List Move) (move : Move) :
    slot.run (moves ++ [move]) = (slot.run moves).move move := by
  simp [run]

theorem Sole.run (h : slot.Sole) (moves : List Move) : (slot.run moves).Sole := by
  induction moves generalizing slot with
  | nil => exact h
  | cons move moves ih => exact ih (h.move move)

theorem grows_run (slot : Slot) (moves : List Move) : (slot.run moves).Grows slot := by
  induction moves generalizing slot with
  | nil => exact .refl slot
  | cons move moves ih => exact (ih (slot.move move)).trans (slot.grows_move move)

theorem length_run (slot : Slot) (moves : List Move) :
    (slot.run moves).cancelled.length = slot.cancelled.length + moves.count .arm := by
  induction moves generalizing slot with
  | nil => rfl
  | cons move moves ih =>
      have hcount : (move :: moves).count .arm = [move].count .arm + moves.count .arm := by
        rw [← List.count_append, List.singleton_append]
      rw [hcount, ← Nat.add_assoc, ← slot.length_move]
      exact ih _

/-- A slot that starts empty is armed as long as nothing has happened since it was
armed. -/
theorem isArmed_run_iff (moves : List Move) :
    (run {} moves).isArmed = true ↔ moves.getLast? = some .arm := by
  rcases List.eq_nil_or_concat moves with rfl | ⟨front, move, rfl⟩
  · simp [run, isArmed]
  · rw [List.concat_eq_append, run_concat, (tidy_empty.sole.run front).isArmed_move_iff]
    simp

/-- What a slot says of its tokens after some moves. -/
structure Agrees (slot : Slot) (moves : List Move) : Prop where
  /-- Every time it was armed it handed out one token. -/
  tokens : slot.cancelled.length = moves.count .arm
  /-- Every token but the latest is cancelled. -/
  earlier : ∀ token, token + 1 < slot.cancelled.length → slot.isCancelled token = true
  /-- What is cancelled stays so, whatever happens next. -/
  stays : ∀ more token, slot.isCancelled token = true → (slot.run more).isCancelled token = true
  /-- It is armed if a token was handed out and the latest one is live, and only then. -/
  armed : slot.isArmed = true ↔
    ∃ token, token + 1 = slot.cancelled.length ∧ slot.isCancelled token = false
  /-- This is so until something happens after it was armed. -/
  lastMove : slot.isArmed = true ↔ moves.getLast? = some .arm
  /-- There is at most one live token. -/
  single : ∀ first second, first < slot.cancelled.length → second < slot.cancelled.length →
    slot.isCancelled first = false → slot.isCancelled second = false → first = second

/-- **A slot agrees with its tokens**, whatever moves have been made. -/
theorem agrees_run (moves : List Move) : (run {} moves).Agrees moves := by
  have hsole : (run {} moves).Sole := tidy_empty.sole.run moves
  refine ⟨?_, fun token => hsole.isCancelled_of_earlier, ?_, hsole.isArmed_iff,
    isArmed_run_iff moves, ?_⟩
  · rw [length_run]
    exact Nat.zero_add _
  · intro more token hcancelled
    exact ((run {} moves).grows_run more).cancelled hcancelled
  · intro first second hfirst hsecond hfirstLive hsecondLive
    have hlatest : first + 1 = second + 1 :=
      (hsole.latest_of_live hfirst hfirstLive).trans
        (hsole.latest_of_live hsecond hsecondLive).symm
    exact Nat.succ.inj hlatest

end PlcTags.Live.Slot
