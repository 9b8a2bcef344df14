import Hocuspocus.Lib.Channel
import Hocuspocus.Lib.Keyed
import Hocuspocus.Protocol

/-!
# The actor state (`document.rs`, `config.rs`, `error.rs`, `origin.rs`)

A document actor owns the `Doc`, the presence table and the connection map,
and it is not alone: the outbound queue of a socket is drained by that
socket's writer task and filled by every document the socket speaks to, and
a debounced store runs on a task of its own. `World` is the actor together
with what it shares: the queues, the store tasks it has spawned, and the
`trace` of what it did that someone else can see.

Concurrency with the queues is explicit. `sched` lists, for each of the
actor's queue operations in turn, what the other holders of the queues do
just before it; a theorem that quantifies over `sched` therefore holds for
every interleaving with the writers.
-/

namespace Hocuspocus

/-- A WebSocket close code + reason pair. -/
structure CloseEvent where
  code : UInt16
  reason : String
  deriving DecidableEq, Repr

def resetConnection : CloseEvent := ⟨4205, "Reset Connection"⟩
def forbidden : CloseEvent := ⟨4403, "Forbidden"⟩
def connectionTimeout : CloseEvent := ⟨4408, "Connection Timeout"⟩

/-- Error returned by lifecycle hooks. -/
structure HookError where
  message : String
  close : Option CloseEvent
  deriving DecidableEq, Repr

/-- A rejection that should close the socket with the given event. -/
def HookError.closing (close : CloseEvent) : HookError := ⟨close.reason, some close⟩

def HookError.forbidden : HookError := .closing Hocuspocus.forbidden

abbrev HookResult := Except HookError Unit

/-- The hook loop `for ext in &extensions { if let Err(e) = … }`: the first
error, in priority order. -/
def firstError : List HookResult → Option HookError
  | [] => none
  | .ok () :: rest => firstError rest
  | .error e :: _ => some e

/-- Where a document mutation originated. -/
inductive Origin
  | connection (id : Nat)
  | redis
  | local
  deriving DecidableEq, Repr

def Origin.isRedis : Origin → Bool
  | .redis => true
  | _ => false

/-- The fields of `Configuration` the server reads; durations and instants
are counted in one unit. -/
structure Configuration where
  timeout : Nat := 60000
  debounce : Nat := 2000
  maxDebounce : Nat := 10000
  unloadImmediately : Bool := true
  maxUnauthenticatedQueueSize : Nat := 5 * 1024 * 1024
  maxUnauthenticatedQueueMessages : Nat := 1000
  maxPendingDocuments : Nat := 100
  outboundCapacity : Nat := 2048

/-- A message destined for a socket's writer task. -/
inductive OutMsg
  | frame (bytes : Bytes)
  | close (event : CloseEvent)
  deriving DecidableEq, Repr

/-- Server-side handle to one connected client within a document. `outbound`
names the queue of the client's socket, which other sessions of that socket
share. -/
structure ConnHandle where
  connId : Nat
  outbound : Nat
  messageAddress : String
  readOnly : Bool
  socketId : String
  sessionId : Option String
  providerVersion : Option String
  clientIds : List Nat
  deriving DecidableEq, Repr

/-- Commands accepted by a running document actor; an `ack` names the oneshot
channel the sender waits on. -/
inductive DocCommand
  | addConnection (handle : ConnHandle) (ack : Nat)
  | clientFrame (connId : Nat) (data : Bytes)
  | removeConnection (connId : Nat)
  | externalFrame (data : Bytes) (reply : Bool)
  | directApply (update : Bytes) (ack : Nat)
  deriving DecidableEq, Repr

/-- What the actor and its store tasks leave behind, in order. A hook the actor
awaits is one entry for its loop over the extensions; `frame` and `close` are
attempts to enqueue, with what the queue answered. A store shows twice: when the
actor takes the `snapshot` for it, and when it is over (`stored`, with what its
`on_store_document` hooks came to). `unloaded` is the removal from the registry. -/
inductive Event (Y : Yrs)
  | added (conn : ConnHandle)
  | applied (update : Bytes) (origin : Origin) (doc : Y.Doc)
  | beforeHandleMessage (update : Bytes) (origin : Origin) (clients : Nat)
  | onChange (update : Bytes) (origin : Origin) (clients : Nat)
  | onAwarenessUpdate (update : Bytes) (added : List Nat) (origin : Origin)
  | onStateless (socketId payload : String)
  | onDisconnect (connId : Nat) (socketId : String)
  | frame (connId outbound : Nat) (bytes : Bytes) (res : SendResult)
  | close (connId outbound : Nat) (event : CloseEvent) (res : SendResult)
  | snapshot (state : Bytes)
  | stored (state : Bytes) (ok : Bool)
  | beforeUnload
  | unloaded
  | reply (frame : Bytes)
  | ack (n : Nat)

/-- The part of the actor that persistence and replication are about: the
document, the store/debounce bookkeeping with the spawned store tasks and
their result channel, and the coalesced broadcast. -/
structure Content (Y : Yrs) where
  doc : Y.Doc
  dirty : Bool
  firstDirtyAt : Option Nat
  lastChangeAt : Option Nat
  lastOrigin : Origin
  storing : Bool
  storeTasks : List Bytes
  storeResults : List Bool
  broadcastBase : Option Y.StateVector
  broadcastPending : Bool

/-- The actor state. -/
structure Document (Y : Yrs) extends Content Y where
  name : String
  awareness : Y.Awareness
  connections : Keyed ConnHandle.connId

/-- What another holder of an outbound queue can do to it: the writer takes
one message (after a `Close` it is done), the writer goes away (a failed
send, or the socket task aborting it), or another sender enqueues. -/
inductive QueueAct
  | drain (queue : Nat)
  | hangup (queue : Nat)
  | send (queue : Nat) (msg : OutMsg)
  deriving DecidableEq, Repr

abbrev Queues := Nat → Channel OutMsg

def Queues.set (qs : Queues) (q : Nat) (c : Channel OutMsg) : Queues :=
  fun i => if i = q then c else qs i

@[simp] theorem Queues.set_self (qs : Queues) (q : Nat) (c : Channel OutMsg) :
    qs.set q c q = c := if_pos rfl

theorem Queues.set_ne (qs : Queues) {q i : Nat} (h : i ≠ q) (c : Channel OutMsg) :
    qs.set q c i = qs i := if_neg h

/-- One turn of the writer task. -/
def drainOne (c : Channel OutMsg) : Channel OutMsg :=
  match c.items with
  | .close _ :: _ => c.close
  | _ => c.recv

def QueueAct.run (qs : Queues) : QueueAct → Queues
  | .drain q => qs.set q (drainOne (qs q))
  | .hangup q => qs.set q (qs q).close
  | .send q m => qs.set q ((qs q).trySend m).1

def runQueueActs (qs : Queues) (acts : List QueueAct) : Queues :=
  acts.foldl QueueAct.run qs

/-- An actor with what it shares. -/
structure World (Y : Yrs) extends Document Y where
  queues : Queues
  sched : List (List QueueAct)
  trace : List (Event Y)

/-- What the environment supplies to one command, timer tick or store
result: the clock, what the hooks answer (one result for each extension, in
priority order), the order of the connection map after an insertion, and the
interleaving with the queues. -/
structure Ambient where
  now : Nat := 0
  beforeHandleMessage : List HookResult := []
  onStore : List HookResult := []
  onStoreUnload : List HookResult := []
  beforeUnload : List HookResult := []
  order : Reorder ConnHandle := Reorder.keep
  sched : List (List QueueAct) := []

end Hocuspocus
