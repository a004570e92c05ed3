import PlcTags.Stamp.Instant
import PlcTags.Stamp.Uuid
import PlcTags.Tag.Vocabulary

/-!
# Events and their bus

What the service tells everyone who listens: batches that were merged into a project, and
sessions that come and go.

Events are kept in a ring, and every listener reads them at its own pace.  Emitting
never waits: a listener that falls further behind than the ring holds events loses the
oldest of them and is told how many.
-/

namespace PlcTags

/-! ## Events -/

inductive TagEvent where
  /-- A live edit was merged into a project. -/
  | reconciled (project : Int) (inserted updated errors : Nat) (time : Instant)
  /-- A container was merged into a project. -/
  | imported (project : Int) (vendor : Vendor) (inserted updated errors : Nat) (time : Instant)
  /-- A session was accepted. -/
  | opened (session : Uuid) (identity : String) (time : Instant)
  /-- A session that had been accepted is over. -/
  | closed (session : Uuid) (time : Instant)
  deriving DecidableEq, Repr

namespace TagEvent

/-- The name of the kind of event. -/
def kind : TagEvent → String
  | reconciled .. => "TagsReconciled"
  | imported .. => "ImportCompleted"
  | opened .. => "SessionOpened"
  | closed .. => "SessionClosed"

/-- The project that the event is about. -/
def project? : TagEvent → Option Int
  | reconciled project .. => some project
  | imported project .. => some project
  | opened .. => none
  | closed .. => none

end TagEvent

/-! ## The bus -/

/-- The least power of two that is not less than a number. -/
def nextPowerOfTwo (n : Nat) : Nat :=
  if n ≤ 1 then 1 else Nat.pow 2 ((n - 1).log2 + 1)

/-- What a listener gets when it reads. -/
inductive Reception where
  | event (event : TagEvent)
  /-- Nothing has been emitted that it has not read. -/
  | empty
  /-- So many events were lost. -/
  | lagged (missed : Nat)
  deriving DecidableEq, Repr

structure EventBus where
  /-- The capacity that was asked for. -/
  capacity : Nat
  /-- How many events have been emitted. -/
  emitted : Nat := 0
  /-- The last of them, the newest first. -/
  kept : List TagEvent := []
  /-- For each listener, how many events it has read or lost; nothing for one that has
  gone. -/
  listeners : List (Option Nat) := []
  deriving Repr

namespace EventBus

/-- The greatest capacity that fits into memory. -/
def maxCapacity : Nat := 0x1000000000000

/-- A bus keeps at least one event. -/
def new? (capacity : Nat) : Option EventBus :=
  if 0 < capacity ∧ capacity ≤ maxCapacity then some { capacity } else none

/-- How many events the ring holds. -/
def ringSize (bus : EventBus) : Nat :=
  nextPowerOfTwo bus.capacity

def listenerCount (bus : EventBus) : Nat :=
  (bus.listeners.filter Option.isSome).length

/-- A new listener, which gets the events emitted from now on; its number is the number
of listeners there have been before. -/
def subscribe (bus : EventBus) : EventBus :=
  { bus with listeners := bus.listeners ++ [some bus.emitted] }

/-- A listener goes. -/
def leave (bus : EventBus) (listener : Nat) : EventBus :=
  { bus with listeners := bus.listeners.set listener none }

/-- Whether a listener is there. -/
def isListening (bus : EventBus) (listener : Nat) : Bool :=
  (bus.listeners[listener]?.join).isSome

/-- Emits an event.  Without listeners it is gone. -/
def emit (bus : EventBus) (event : TagEvent) : EventBus :=
  if bus.listenerCount = 0 then bus
  else
    { bus with
      emitted := bus.emitted + 1
      kept := (event :: bus.kept).take bus.ringSize }

/-- What the next reading gives a listener that has read so many events, and how many it
has read or lost after that. -/
def reception (bus : EventBus) (position : Nat) : Reception × Nat :=
  let oldest := bus.emitted - bus.ringSize
  if position < oldest then (.lagged (oldest - position), oldest)
  else match bus.kept[bus.emitted - position - 1]? with
    | some event =>
      if position < bus.emitted then (.event event, position + 1) else (.empty, position)
    | none => (.empty, position)

/-- One reading of a listener. -/
def receive (bus : EventBus) (listener : Nat) : Option (Reception × EventBus) :=
  match bus.listeners[listener]?.join with
  | none => none
  | some position =>
    let (reception, position) := bus.reception position
    some (reception, { bus with listeners := bus.listeners.set listener (some position) })

/-- All events that a listener has not read; what it has lost is passed over. -/
def receiveAll (bus : EventBus) (listener : Nat) : List TagEvent × EventBus :=
  match bus.listeners[listener]?.join with
  | none => ([], bus)
  | some position =>
    let unread := min (bus.emitted - position) bus.ringSize
    ((bus.kept.take unread).reverse,
      { bus with listeners := bus.listeners.set listener (some bus.emitted) })

end EventBus

end PlcTags
