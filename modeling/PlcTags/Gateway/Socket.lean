import PlcTags.Gateway.Line
import PlcTags.Service.Work
import PlcTags.Wire.Message

/-!
# Sockets

A socket carries a session over a connection that exchanges frames.  A client that has
not shown a credential while connecting has to send one in its first frame, within a time
limit; a socket whose session is not accepted then is closed.  Frames are handled one
after the other, each after the answer to the one before it.
-/

namespace PlcTags.Gateway

open Live

/-- What a client sends. -/
inductive Frame where
  | text (content : String)
  | binary
  | close
  deriving DecidableEq, Repr

/-- What a client gets. -/
inductive Delivery where
  | message (message : ServerMessage)
  /-- The connection is over. -/
  | closed
  deriving DecidableEq, Repr

inductive Phase where
  /-- The first frame is awaited, which must bring a credential. -/
  | greeting (deadline : Nat)
  /-- The credential is being checked. -/
  | admission
  /-- The session has been accepted. -/
  | conversation
  | over
  deriving DecidableEq, Repr

structure Socket where
  session : Nat
  phase : Phase
  /-- A call of the session is on its way. -/
  isBusy : Bool := false
  /-- The frames that have not been handled, the oldest first. -/
  incoming : List Frame := []
  /-- What was delivered to the client, the oldest first. -/
  received : List Delivery := []

namespace Socket

/-! ## Frames -/

/-- What the client is told about a frame that holds no message. -/
def unreadable (frame : Frame) : ServerMessage :=
  match frame with
  | .text _ => .error "invalid message: it is not one of the messages of a client"
  | .binary | .close => .error "binary frames are not supported"

/-- The message in a frame. -/
def messageIn (frame : Frame) : Option ClientMessage :=
  match frame with
  | .text content => ClientMessage.parse? content
  | .binary | .close => none

/-! ## Moves -/

/-- Delivers what lies in the outbox. -/
def forward (socket : Socket) (service : Service) : Socket × Service :=
  if socket.phase = .over then (socket, service)
  else
    let (messages, service) := service.takeAll socket.session
    ({ socket with received := socket.received ++ messages.map .message }, service)

/-- Says something to the client. -/
def say (socket : Socket) (service : Service) (message : ServerMessage) : Socket × Service :=
  socket.forward (service.post socket.session message)

/-- Ends the session and the connection. -/
def finish (socket : Socket) (service : Service) : Socket × Service :=
  let (socket, service) := socket.forward (service.drop socket.session)
  ({ socket with phase := .over, incoming := [], received := socket.received ++ [.closed] },
    service.hangUp socket.session)

/-- Whether the session has been accepted. -/
def isAccepted (socket : Socket) (service : Service) : Bool :=
  service.sessions[socket.session]?.any (·.state ≠ .unauthenticated)

/-- The call of the session is over: the client gets the reply, and after the check of a
credential the connection goes on or ends. -/
def reply (socket : Socket) (service : Service) (session : Session) : Socket × Service :=
  let socket := { socket with isBusy := false }
  let (socket, service) := match session.reply with
    | some message => socket.say service message
    | none => (socket, service)
  if socket.phase = .admission then
    if socket.isAccepted service then ({ socket with phase := .conversation }, service)
    else socket.finish service
  else (socket, service)

/-- The first frame. -/
def greet (socket : Socket) (service : Service) (frame : Frame) : Socket × Service :=
  if frame = .close then socket.finish service
  else match messageIn frame with
    | some (.auth token) =>
      ({ socket with phase := .admission, isBusy := true },
        service.authenticate socket.session (some token))
    | some _ =>
      let (socket, service) := socket.say service (.error "first message must be auth")
      socket.finish service
    | none =>
      let (socket, service) := socket.say service (unreadable frame)
      socket.finish service

/-- A frame of the conversation. -/
def converse (socket : Socket) (service : Service) (frame : Frame) : Socket × Service :=
  if frame = .close then socket.finish service
  else match messageIn frame with
    | some message =>
      ({ socket with isBusy := true }, service.handle socket.session message)
    | none => socket.say service (unreadable frame)

/-- The time for the first frame is over. -/
def expire (socket : Socket) (service : Service) : Socket × Service :=
  let (socket, service) := socket.say service (.error "authentication timed out")
  socket.finish service

/-- The next move of a socket, if it need not wait. -/
def move? (socket : Socket) (service : Service) : Option (Socket × Service) :=
  if socket.isBusy then do
    let session ← service.sessions[socket.session]?
    if session.isIdle then return socket.reply service session else none
  else match socket.phase, socket.incoming with
    | .greeting _, frame :: rest => some ({ socket with incoming := rest }.greet service frame)
    | .greeting deadline, [] =>
      if deadline ≤ service.now then some (socket.expire service) else none
    | .conversation, frame :: rest =>
      some ({ socket with incoming := rest }.converse service frame)
    | .conversation, [] | .admission, _ | .over, _ => none

/-- A client connects.  A credential that it shows, or that nobody needs to show, is
checked at once. -/
def connect (service : Service) (session : Nat) (credential : Option String) :
    Socket × Service :=
  if credential.isSome || service.settings.auth.disabled then
    ({ session, phase := .admission, isBusy := true }, service.authenticate session credential)
  else
    ({ session, phase := .greeting (service.now + service.settings.sync.handshakeTimeoutMs) },
      service)

/-! ## Work -/

/-- The moves and steps that a frame can lead to. -/
def frameWork : Frame → Nat
  | .text content => content.utf8ByteSize + 16
  | .binary => 16
  | .close => 16

/-- The moves that are left, and the steps that they lead to. -/
def work (socket : Socket) : Nat :=
  (if socket.phase = .over then 0 else 1) + (if socket.isBusy then 1 else 0) +
    totalWork frameWork socket.incoming

end Socket

end PlcTags.Gateway
