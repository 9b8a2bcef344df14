import Hocuspocus.Document.Run

/-!
# One socket (`ClientConnection`, `server.rs`)

What the task of a socket does by itself: it takes a frame apart, passes it on
to the actor its routing key is established for, queues it, or starts to
authenticate. Where the source waits (the hooks, `register_connection`) the
method ends and the `task` says where it goes on; the steps of those parts are
in `Server/State.lean`, because they touch what the tasks share.

A method returns what is to be sent to actors. `trace` records that, and what
the task put on its own outbound queue, and the hooks it ran.
-/

namespace Hocuspocus

/-- A routing key that is established, with the actor its handle leads to. -/
structure Established where
  key : String
  doc : Nat
  connId : Nat
  deriving DecidableEq, Repr

/-- What is queued for a routing key that is not established yet. -/
structure Pending where
  key : String
  frames : List Bytes

structure ClientConnection where
  socketId : String
  established : Keyed Established.key
  queue : Keyed Pending.key
  queuedBytes : Nat
  queuedMessages : Nat
  establishedAt : Nat
  lastMessageAt : Nat
  authenticated : Bool

/-- What `authenticate` reads from an `Auth` frame and its routing key. -/
structure AuthRequest where
  key : String
  documentName : String
  sessionId : Option String
  token : String
  providerVersion : Option String
  deriving DecidableEq, Repr

/-- Where a call of `ServerShared::document` stands: before the first lookup,
after a miss, waiting for the lock of the name, holding it before the second
lookup, in `Document::spawn`, before the insertion, before the removal of the
lock's entry. -/
inductive DocumentCall
  | lookup
  | miss
  | wait (lock : Nat)
  | check (lock : Nat)
  | spawn (lock : Nat)
  | insert (lock : Nat) (doc : Nat)
  | forget (lock : Nat) (doc : Nat)
  deriving DecidableEq, Repr

/-- Getting a handle, sending a command with an `ack`, waiting for it. -/
inductive Stage
  | document (call : DocumentCall)
  | send (doc : Nat)
  | await (doc : Nat) (ack : Nat)
  deriving DecidableEq, Repr

/-- A call of `register_connection`; `again` says that the loop has another
turn. -/
structure Registration where
  request : AuthRequest
  connId : Nat
  readOnly : Bool
  again : Bool
  stage : Stage
  deriving DecidableEq, Repr

/-- Where the task of a socket waits: in `select!`, for the `on_connect` or the
`on_authenticate` hooks, in `register_connection`, or on its way through
`cleanup`. -/
inductive SocketTask
  | reading
  | connecting (request : AuthRequest)
  | authenticating (request : AuthRequest)
  | registering (registration : Registration)
  | cleaning
  | ended
  deriving DecidableEq, Repr

inductive SocketEvent
  | onConnect (request : AuthRequest) (results : List HookResult)
  | onAuthenticate (request : AuthRequest) (results : List HookResult) (readOnly : Bool)
  | out (msg : OutMsg)
  | command (doc : Nat) (cmd : DocCommand)

structure Socket where
  client : ClientConnection
  task : SocketTask
  trace : List SocketEvent

/-- `AuthMessageType::Token` and what follows it. -/
def AuthRequest.parse (Y : Yrs) (rawKey : String) (data : Bytes) : Option AuthRequest :=
  match IncomingFrame.parse Y data with
  | none => none
  | some frame =>
    match Y.readVar frame.decoder with
    | (none, _) => none
    | (some authType, rest) =>
      if authType ≠ AuthMessageType.token.toU64 then none
      else
        let token := Y.readString rest
        some {
          key := rawKey
          documentName := (parseRoutingKey rawKey).1
          sessionId := (parseRoutingKey rawKey).2
          token := token.1.getD ""
          providerVersion := (Y.readString token.2).1 }

namespace ClientConnection

def new (socketId : String) (now : Nat) : ClientConnection where
  socketId := socketId
  established := Keyed.empty
  queue := Keyed.empty
  queuedBytes := 0
  queuedMessages := 0
  establishedAt := now
  lastMessageAt := now
  authenticated := false

def idleDeadline (cfg : Configuration) (c : ClientConnection) : Nat :=
  (if c.authenticated then c.lastMessageAt else c.establishedAt) + cfg.timeout

/-- `queue.entry(raw_key).or_default().push(data)`. -/
def push (c : ClientConnection) (rawKey : String) (data : Bytes) : ClientConnection :=
  let frames := (c.queue.get? rawKey).elim [] Pending.frames
  { c with
    queuedBytes := c.queuedBytes + data.length
    queuedMessages := c.queuedMessages + 1
    queue := c.queue.insert Reorder.keep ⟨rawKey, frames ++ [data]⟩ }

/-- The loop over what was queued takes each message off the counters. -/
def release (c : ClientConnection) (pending : List Bytes) : ClientConnection :=
  pending.foldl (fun c msg =>
    { c with
      queuedMessages := c.queuedMessages - 1
      queuedBytes := c.queuedBytes - msg.length }) c

end ClientConnection

namespace Socket

variable (Y : Yrs)

def emit (sock : Socket) (e : SocketEvent) : Socket := { sock with trace := sock.trace ++ [e] }

def terminate (sock : Socket) (event : CloseEvent) : Socket := sock.emit (.out (.close event))

/-- A command goes to an actor. -/
def tell (sock : Socket) (doc : Nat) (cmd : DocCommand) : Socket × List (Nat × DocCommand) :=
  (sock.emit (.command doc cmd), [(doc, cmd)])

def enqueue (cfg : Configuration) (sock : Socket) (rawKey : String) (data : Bytes) : Socket :=
  let c := sock.client
  let isNewDoc := !c.queue.contains rawKey
  if isNewDoc && c.queue.size + 1 > cfg.maxPendingDocuments then sock.terminate resetConnection
  else if c.queuedMessages + 1 > cfg.maxUnauthenticatedQueueMessages ||
      c.queuedBytes + data.length > cfg.maxUnauthenticatedQueueSize then
    sock.terminate resetConnection
  else { sock with client := c.push rawKey data }

/-- `authenticate`, up to the `on_connect` hooks. -/
def authenticate (sock : Socket) (rawKey : String) (data : Bytes) : Socket :=
  match AuthRequest.parse Y rawKey data with
  | none => sock
  | some request => { sock with task := .connecting request }

def handleFrame (cfg : Configuration) (now : Nat) (sock : Socket) (data : Bytes) :
    Socket × List (Nat × DocCommand) :=
  let sock := { sock with client := { sock.client with lastMessageAt := now } }
  if data.length = 1 then (sock, [])
  else
    match IncomingFrame.parse Y data with
    | none => (sock, [])
    | some frame =>
      match sock.client.established.get? frame.routingKey with
      | some est => sock.tell est.doc (.clientFrame est.connId data)
      | none =>
        if frame.messageType = .auth then (sock.authenticate Y frame.routingKey data, [])
        else (sock.enqueue cfg frame.routingKey data, [])

/-- `deny`, where `authenticate` returns. -/
def deny (sock : Socket) (rawKey : String) (reason : String) : Socket :=
  let sock := sock.emit
    (.out (.frame ((OutgoingMessage.new Y rawKey).permissionDenied Y reason).intoBytes))
  { sock.terminate forbidden with task := .reading }

/-- The `on_connect` hooks have run. -/
def connected (sock : Socket) (request : AuthRequest) (results : List HookResult) : Socket :=
  let sock := sock.emit (.onConnect request results)
  match firstError results with
  | some e => sock.deny Y request.key e.message
  | none => { sock with task := .authenticating request }

/-- The `on_authenticate` hooks have run and left the configuration with this
`read_only`. -/
def authenticated (sock : Socket) (request : AuthRequest) (results : List HookResult)
    (readOnly : Bool) (connId : Nat) : Socket :=
  let sock := sock.emit (.onAuthenticate request results readOnly)
  match firstError results with
  | some e => sock.deny Y request.key e.message
  | none =>
    let sock := { sock with client := { sock.client with authenticated := true } }
    let sock := sock.emit
      (.out (.frame ((OutgoingMessage.new Y request.key).authenticated Y readOnly).intoBytes))
    { sock with task := .registering ⟨request, connId, readOnly, true, .document .lookup⟩ }

/-- The handle `register_connection` adds to the document; `outbound` is the
socket's queue. -/
def connHandle (sock : Socket) (outbound : Nat) (r : Registration) : ConnHandle where
  connId := r.connId
  outbound := outbound
  messageAddress := r.request.key
  readOnly := r.readOnly
  socketId := sock.client.socketId
  sessionId := r.request.sessionId
  providerVersion := r.request.providerVersion
  clientIds := []

/-- A turn of the loop of `register_connection` has failed. -/
def failed (sock : Socket) (r : Registration) : Socket :=
  if r.again then
    { sock with task := .registering { r with again := false, stage := .document .lookup } }
  else { sock.terminate resetConnection with task := .reading }

/-- The rest of `authenticate`: the connection is established, and what was
queued for its routing key goes to the actor. -/
def register (sock : Socket) (r : Registration) (doc : Nat) : Socket × List (Nat × DocCommand) :=
  let client := { sock.client with
    established := sock.client.established.insert Reorder.keep ⟨r.request.key, doc, r.connId⟩ }
  let sock := { sock with client := client, task := .reading }
  match client.queue.get? r.request.key with
  | none => (sock, [])
  | some pending =>
    let commands := pending.frames.map fun msg => DocCommand.clientFrame r.connId msg
    ({ sock with
        client := { client with queue := client.queue.erase r.request.key }.release pending.frames
        trace := sock.trace ++ commands.map (.command doc) },
      commands.map fun cmd => (doc, cmd))

/-- One entry that `cleanup` drains. -/
def leave (sock : Socket) (est : Established) : Socket × List (Nat × DocCommand) :=
  ({ sock with client := { sock.client with
    established := sock.client.established.erase est.key } }).tell est.doc
      (.removeConnection est.connId)

end Socket

end Hocuspocus
