import PlcTags.Gateway.Socket
import PlcTags.Gateway.Stream
import PlcTags.Service.Work

/-!
# The gateway

The gateway is the service with its connections.  Whatever is done to it, it goes on
until nothing is left to do but wait: for the clock, for a client, or for room in an
outbox that nobody empties.
-/

namespace PlcTags

open Live Gateway

structure Gateway where
  service : Service
  lines : List Line := []
  sockets : List Socket := []
  streams : List Stream := []

namespace Gateway

/-! ## Going on -/

/-- Hands everything over that has come for the items of a list. -/
def forwardAll {α : Type} (forward : α → Service → α × Service) :
    List α → Service → List α × Service
  | [], service => ([], service)
  | first :: rest, service =>
    let (first, service) := forward first service
    let (rest, service) := forwardAll forward rest service
    (first :: rest, service)

/-- Hands everything over that has come for the clients. -/
def forward (gateway : Gateway) : Gateway :=
  let (lines, service) := forwardAll Line.forward gateway.lines gateway.service
  let (sockets, service) := forwardAll Socket.forward gateway.sockets service
  let (streams, service) := forwardAll Stream.forward gateway.streams service
  { service, lines, sockets, streams }

/-- The move of the first socket that has one. -/
def moveSocket? (service : Service) : List Socket → Option (List Socket × Service)
  | [] => none
  | socket :: rest =>
    match socket.move? service with
    | some (socket, service) => some (socket :: rest, service)
    | none => (moveSocket? service rest).map fun (rest, service) => (socket :: rest, service)

/-- The move of a socket or the step of a party, if there is one. -/
def advance? (gateway : Gateway) : Option Gateway :=
  match moveSocket? gateway.service gateway.sockets with
  | some (sockets, service) => some { gateway with service, sockets }
  | none => gateway.service.firstStep?.map ({ gateway with service := · })

/-- What is left to do. -/
def work (gateway : Gateway) : Nat :=
  gateway.service.work + totalWork Socket.work gateway.sockets

/-- Goes on for at most so many moves and steps. -/
def settleWithin : Nat → Gateway → Gateway
  | 0, gateway => gateway.forward
  | most + 1, gateway =>
    match gateway.forward.advance? with
    | some next => settleWithin most next
    | none => gateway.forward

/-- Goes on until nothing is left to do. -/
def settle (gateway : Gateway) : Gateway :=
  settleWithin gateway.work gateway

/-- A millisecond passes, and all that is due in it is done. -/
def tick (gateway : Gateway) : Gateway :=
  { gateway with service := gateway.service.setClock (gateway.service.now + 1) }.settle

/-- So many milliseconds pass. -/
def elapse : Nat → Gateway → Gateway
  | 0, gateway => gateway
  | milliseconds + 1, gateway => elapse milliseconds gateway.tick

/-! ## Connections -/

/-- Does something with the service, and goes on from there. -/
def act (gateway : Gateway) (change : Service → Service) : Gateway :=
  { gateway with service := change gateway.service }.settle

/-- Opens a line to a new session; its number is the number of lines there were. -/
def openLine? (gateway : Gateway) (capacity : Nat) (isManual : Bool) : Option Gateway :=
  (gateway.service.openSession? capacity).map fun service =>
    { gateway with
      service
      lines := gateway.lines ++ [{ session := gateway.service.sessions.length, isManual }] }

/-- Connects a socket to a new session; its number is the number of sockets there were. -/
def connect? (gateway : Gateway) (credential : Option String) : Option Gateway :=
  (gateway.service.openSession? gateway.service.settings.sync.outboundQueue).map fun service =>
    let (socket, service) :=
      Socket.connect service gateway.service.sessions.length credential
    { gateway with service, sockets := gateway.sockets ++ [socket] }.settle

/-- A client sends a frame over its socket. -/
def receive (gateway : Gateway) (number : Nat) (frame : Frame) : Gateway :=
  { gateway with
    sockets := gateway.sockets.modify number fun socket =>
      { socket with incoming := socket.incoming ++ [frame] } }.settle

/-- Opens a stream of events; its number is the number of streams there were. -/
def openStream (gateway : Gateway) (project : Option Int) : Gateway :=
  { gateway with
    service := { gateway.service with events := gateway.service.events.subscribe }
    streams := gateway.streams ++ [{
      listener := gateway.service.events.listeners.length
      project
      due := gateway.service.now + Stream.silence
      received := [Stream.greeting] }] }

end Gateway

end PlcTags
