/-!
# Debounce slots

A session has one slot, which holds the edit that waits for its delay.  Every edit gets
a token; arming the slot cancels the edit that is in it, so that of a burst of edits
only the last one remains.
-/

namespace PlcTags.Live

structure Slot where
  /-- For each token handed out, whether it has been cancelled. -/
  cancelled : List Bool := []
  /-- The token in the slot, by its place in the list. -/
  pending : Option Nat := none
  deriving DecidableEq, Repr

namespace Slot

/-- Whether a token has been cancelled. -/
def isCancelled (slot : Slot) (token : Nat) : Bool :=
  slot.cancelled.getD token false

/-- Cancels a token wherever it is. -/
def cancelToken (slot : Slot) (token : Nat) : Slot :=
  { slot with cancelled := slot.cancelled.set token true }

/-- Cancels the token in the slot, and empties the slot. -/
def cancel (slot : Slot) : Slot :=
  match slot.pending with
  | some token => { slot.cancelToken token with pending := none }
  | none => slot

/-- The token that is handed out next. -/
def nextToken (slot : Slot) : Nat :=
  slot.cancelled.length

/-- Cancels what is in the slot and puts a new token there. -/
def arm (slot : Slot) : Slot where
  cancelled := slot.cancel.cancelled ++ [false]
  pending := some slot.nextToken

/-- A token is in the slot and nobody has cancelled it. -/
def isArmed (slot : Slot) : Bool :=
  slot.pending.any (!slot.isCancelled ·)

/-! ## Moves -/

/-- Whoever has the latest token cancels it, if there is one; it stays in the slot. -/
def revoke (slot : Slot) : Slot :=
  slot.cancelToken (slot.nextToken - 1)

/-- What can happen to a slot and its tokens. -/
inductive Move where
  | arm
  | cancel
  | revoke
  deriving DecidableEq, Repr

/-- The slot after a move. -/
def move (slot : Slot) : Move → Slot
  | .arm => slot.arm
  | .cancel => slot.cancel
  | .revoke => slot.revoke

/-- The slot after some moves. -/
def run (slot : Slot) (moves : List Move) : Slot :=
  moves.foldl move slot

end Slot

end PlcTags.Live
