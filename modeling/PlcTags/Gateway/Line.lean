import PlcTags.Service.Call

/-!
# Lines

A line is a connection within the process: its owner calls the session directly.  What
the service says to the session is handed over at once, or kept until it is asked for.
-/

namespace PlcTags.Gateway

open Live

structure Line where
  session : Nat
  /-- Messages are kept until they are asked for. -/
  isManual : Bool := false
  /-- The messages that were handed over, the oldest first. -/
  received : List ServerMessage := []

end PlcTags.Gateway

namespace PlcTags.Service

open Live

/-- A client takes out at most so many messages. -/
def takeMessages (service : Service) (number : Nat) : Nat → List ServerMessage × Service
  | 0 => ([], service)
  | most + 1 =>
    match service.takeMessage? number with
    | none => ([], service)
    | some (message, service) =>
      let (messages, service) := service.takeMessages number most
      (message :: messages, service)

/-- How many messages lie in a session's outbox. -/
def queueLength (service : Service) (number : Nat) : Nat :=
  (service.sessions[number]?.map (·.outbox.queue.length)).getD 0

/-- A client takes out all messages that lie there. -/
def takeAll (service : Service) (number : Nat) : List ServerMessage × Service :=
  service.takeMessages number (service.queueLength number)

end PlcTags.Service

namespace PlcTags.Gateway.Line

/-- Hands over what has come. -/
def forward (line : Line) (service : Service) : Line × Service :=
  if line.isManual then (line, service)
  else
    let (messages, service) := service.takeAll line.session
    ({ line with received := line.received ++ messages }, service)

end PlcTags.Gateway.Line
