import PlcTags.Json.Printer
import PlcTags.Service.Basic
import PlcTags.Wire.Message

/-!
# Event streams

A stream sends events to a client as they are emitted, all of them or those of one
project.  After a silence it sends a sign of life.
-/

namespace PlcTags.Gateway

/-- What a stream sends. -/
inductive StreamFrame where
  /-- The name of a kind of event, and the event as JSON. -/
  | event (name data : String)
  | comment (text : String)
  deriving DecidableEq, Repr

structure Stream where
  /-- The listener on the event bus. -/
  listener : Nat
  /-- Only events of this project are sent. -/
  project : Option Int
  /-- When the next sign of life is due. -/
  due : Nat
  /-- The frames that were sent, the oldest first. -/
  received : List StreamFrame := []

namespace Stream

/-- How long a stream is silent at most, in milliseconds. -/
def silence : Nat := 15000

/-- The first frame of every stream. -/
def greeting : StreamFrame := .event "ConnectionStatus" "connected"

/-- The sign of life. -/
def heartbeat : StreamFrame := .comment "heartbeat"

/-- Whether an event is sent. -/
def passes (stream : Stream) (event : TagEvent) : Bool :=
  stream.project.isNone || event.project? == stream.project

def frame (event : TagEvent) : StreamFrame :=
  .event event.kind event.toJson.render

/-- Sends frames; the silence begins anew. -/
def send (stream : Stream) (now : Nat) (frames : List StreamFrame) : Stream :=
  { stream with received := stream.received ++ frames, due := now + silence }

/-- Sends what has been emitted, or a sign of life if one is due. -/
def forward (stream : Stream) (service : Service) : Stream × Service :=
  let (events, bus) := service.events.receiveAll stream.listener
  let frames := (events.filter stream.passes).map frame
  let stream :=
    if !frames.isEmpty then stream.send service.now frames
    else if stream.due ≤ service.now then stream.send service.now [heartbeat]
    else stream
  (stream, { service with events := bus })

end Stream

end PlcTags.Gateway
