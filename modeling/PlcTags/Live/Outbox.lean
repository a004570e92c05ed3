import PlcTags.Live.Locks
import PlcTags.Live.Message

/-!
# Outboxes

What the service has to say to a session goes into a queue of bounded length.  A party
with a message may wait for room: those who wait get in line, and room that appears is
theirs.  A message that nobody waits with is only put in while there is room that nobody
waits for.
-/

namespace PlcTags.Live

structure Outbox where
  /-- How many messages the queue holds at most. -/
  capacity : Nat
  /-- The messages that have not been taken out, the oldest first. -/
  queue : List ServerMessage := []
  /-- The parties that wait for room, each with its message. -/
  waiting : List (Party × ServerMessage) := []
  /-- Somebody takes messages out. -/
  isOpen : Bool := true
  deriving DecidableEq, Repr

namespace Outbox

/-- The greatest capacity that can be counted. -/
def maxCapacity : Nat := 0x1FFFFFFFFFFFFFFF

/-- A queue holds at least one message. -/
def new? (capacity : Nat) : Option Outbox :=
  if 0 < capacity ∧ capacity ≤ maxCapacity then some { capacity } else none

/-- There is room that nobody waits for. -/
def hasRoom (outbox : Outbox) : Bool :=
  outbox.queue.length + outbox.waiting.length < outbox.capacity

def push (outbox : Outbox) (message : ServerMessage) : Outbox :=
  { outbox with queue := outbox.queue ++ [message] }

/-- A message without anybody who waits is accepted. -/
def accepts (outbox : Outbox) : Bool :=
  outbox.isOpen && outbox.hasRoom

/-- Puts a message in if it is accepted. -/
def offer (outbox : Outbox) (message : ServerMessage) : Outbox :=
  if outbox.accepts then outbox.push message else outbox

/-- Puts a message in, or gets in line with it.  Nobody waits for a closed outbox. -/
def send (outbox : Outbox) (party : Party) (message : ServerMessage) : Outbox :=
  if !outbox.isOpen then outbox
  else if outbox.hasRoom then outbox.push message
  else { outbox with waiting := outbox.waiting ++ [(party, message)] }

/-- A party waits for room. -/
def isAwaitedBy (outbox : Outbox) (party : Party) : Bool :=
  outbox.waiting.any (·.1 == party)

/-- The first in line puts its message in, if there is room. -/
def admit? (outbox : Outbox) (party : Party) : Option Outbox :=
  match outbox.waiting with
  | (first, message) :: rest =>
    if first = party ∧ outbox.queue.length < outbox.capacity then
      some { outbox with queue := outbox.queue ++ [message], waiting := rest }
    else none
  | [] => none

/-- Takes the oldest message out. -/
def take? (outbox : Outbox) : Option (ServerMessage × Outbox) :=
  match outbox.queue with
  | message :: rest => some (message, { outbox with queue := rest })
  | [] => none

/-- Nobody will take messages out any more, so nobody waits for it. -/
def close (outbox : Outbox) : Outbox :=
  { outbox with isOpen := false, waiting := [] }

end Outbox

end PlcTags.Live
