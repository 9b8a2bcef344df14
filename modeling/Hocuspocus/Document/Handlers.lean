import Hocuspocus.Document.State

/-!
# The actor's handlers (`document.rs`)

One definition for each method of `Document`, in the source's order and with
its branches; `&mut self` is a `World` passed through. `Document::run` is in
`Document/Run.lean`.
-/

namespace Hocuspocus

variable {Y : Yrs}

namespace World

def emit (w : World Y) (e : Event Y) : World Y := { w with trace := w.trace ++ [e] }

/-- The other holders of the queues take their turn. -/
def poll (w : World Y) : World Y :=
  match w.sched with
  | [] => w
  | acts :: rest => { w with queues := runQueueActs w.queues acts, sched := rest }

/-- `try_send` on an outbound queue. -/
def trySend (w : World Y) (q : Nat) (m : OutMsg) : World Y × SendResult :=
  let w := w.poll
  let sent := (w.queues q).trySend m
  ({ w with queues := w.queues.set q sent.1 }, sent.2)

/-- `ConnHandle::send_frame`: false exactly when the queue is full. -/
def sendFrame (w : World Y) (conn : ConnHandle) (frame : Bytes) : World Y × Bool :=
  let sent := w.trySend conn.outbound (.frame frame)
  (sent.1.emit (.frame conn.connId conn.outbound frame sent.2), sent.2 ≠ .full)

/-- `ConnHandle::send_close`. -/
def sendClose (w : World Y) (conn : ConnHandle) (event : CloseEvent) : World Y :=
  let sent := w.trySend conn.outbound (.close event)
  sent.1.emit (.close conn.connId conn.outbound event sent.2)

/-- `remove_state` for each id. -/
def removeStates (w : World Y) (ids : List Nat) : World Y :=
  { w with awareness := ids.foldl Y.removeState w.awareness }

/-- `connections.remove(&id)`, and the presence of the removed connection with
it. -/
def detach (w : World Y) (id : Nat) (conn : ConnHandle) : World Y :=
  { w with connections := w.connections.erase id }.removeStates conn.clientIds

/-- One turn of the `evict_lagging` loop. -/
def evict (w : World Y) (id : Nat) : World Y :=
  match w.connections.get? id with
  | none => w
  | some conn => (w.detach id conn).sendClose conn resetConnection

def evictLagging : World Y → List Nat → World Y
  | w, [] => w
  | w, id :: ids => evictLagging (w.evict id) ids

/-- The send loop of `broadcast_with`: each connection gets its frame, and
the ids of those whose queue was full are collected. -/
def sendEach (frameFor : ConnHandle → Bytes) : World Y → List ConnHandle → World Y × List Nat
  | w, [] => (w, [])
  | w, conn :: rest =>
    let sent := w.sendFrame conn (frameFor conn)
    let others := sendEach frameFor sent.1 rest
    (others.1, if sent.2 then others.2 else conn.connId :: others.2)

/-- The frame a connection gets: the shared one if its address is the
document's name. -/
def sharedFrame (name : String) (build : String → Bytes) (conn : ConnHandle) : Bytes :=
  let defaultFrame := build name
  if conn.messageAddress = name then defaultFrame else build conn.messageAddress

def broadcastWith (w : World Y) (build : String → Bytes) : World Y :=
  let sent := sendEach (sharedFrame w.name build) w w.connections.vals
  sent.1.evictLagging sent.2

def broadcastAwareness (w : World Y) (update : Bytes) : World Y :=
  w.broadcastWith fun addr => ((OutgoingMessage.new Y addr).awarenessUpdate Y update).intoBytes

def broadcastStateless (w : World Y) (payload : String) : World Y :=
  w.broadcastWith fun addr => ((OutgoingMessage.new Y addr).stateless Y payload).intoBytes

def addConnection (w : World Y) (order : Reorder ConnHandle) (handle : ConnHandle) : World Y :=
  let greeted :=
    if Y.hasStates w.awareness then
      match Y.awarenessUpdate w.awareness with
      | some update =>
        (w.sendFrame handle ((OutgoingMessage.new Y handle.messageAddress).awarenessUpdate Y
          (Y.encodeAwareness update)).intoBytes).1
      | none => w
    else w
  { greeted with connections := greeted.connections.insert order handle }.emit (.added handle)

def removeConnection (w : World Y) (connId : Nat) : World Y :=
  match w.connections.get? connId with
  | none => w
  | some handle =>
    let removed := handle.clientIds
    let w := w.detach connId handle
    let w :=
      if removed.isEmpty then w
      else
        match Y.updateWithClients w.awareness removed with
        | some update => w.broadcastAwareness (Y.encodeAwareness update)
        | none => w
    w.emit (.onDisconnect connId handle.socketId)

def markDirty (w : World Y) (now : Nat) (origin : Origin) : World Y :=
  { w with
    dirty := true
    firstDirtyAt := some (w.firstDirtyAt.getD now)
    lastChangeAt := some now
    lastOrigin := origin }

/-- The end of `apply_and_broadcast`: a change that encodes to something is
queued for the flush, marks the document dirty and is announced. -/
def noteChange (o : Ambient) (w : World Y) (baseBefore : Option Y.StateVector) (computed : Bytes)
    (origin : Origin) : World Y :=
  if computed.isEmpty then w
  else
    let w := { w with
      broadcastBase :=
        match baseBefore with
        | some base => some base
        | none => w.broadcastBase
      broadcastPending := true }
    (w.markDirty o.now origin).emit (.onChange computed origin w.connections.size)

def applyAndBroadcast (o : Ambient) (w : World Y) (update : Bytes) (origin : Origin) : World Y :=
  let baseBefore := if w.broadcastBase.isNone then some (Y.stateVector w.doc) else none
  match Y.decodeUpdate update with
  | none => w
  | some u =>
    let applied := Y.applyUpdate w.doc u
    let computed := Y.encodeTxn w.doc u
    let w := { w with doc := applied.1 }
    if !applied.2 then w
    else (w.emit (.applied update origin applied.1)).noteChange o baseBefore computed origin

/-- The close the hook error asks for, to the connection if it is there. -/
def rejectMessage (w : World Y) (connId : Nat) (e : HookError) : World Y :=
  match w.connections.get? connId with
  | some conn => w.sendClose conn (e.close.getD resetConnection)
  | none => w

def beforeHandleMessage (o : Ambient) (w : World Y) (connId : Nat) (update : Bytes)
    (origin : Origin) : World Y × Bool :=
  let w := w.emit (.beforeHandleMessage update origin w.connections.size)
  match firstError o.beforeHandleMessage with
  | none => (w, true)
  | some e => (w.rejectMessage connId e, false)

def sendSyncStatus (w : World Y) (connId : Nat) (address : String) (saved : Bool) : World Y :=
  match w.connections.get? connId with
  | some conn =>
    (w.sendFrame conn ((OutgoingMessage.new Y address).syncStatus Y saved).intoBytes).1
  | none => w

/-- A `Sync` frame carrying the message. -/
def syncFrame (Y : Yrs) (address : String) (msg : SyncMessage Y.StateVector) : Bytes :=
  (((OutgoingMessage.new Y address).sync Y).writeSyncPayload (Y.encodeSync msg)).intoBytes

/-- `handle_sync`; `conn` is `self.connections[&conn_id]`, which the caller
has found in the map. -/
def handleSync (o : Ambient) (w : World Y) (conn : ConnHandle) (address : String)
    (origin : Origin) (frame : IncomingFrame) : World Y :=
  match Y.decodeSync frame.decoder with
  | none => w
  | some (.syncStep1 clientSv) =>
    let step2 := Y.encodeDiff w.doc clientSv
    let serverSv := Y.stateVector w.doc
    let w := (w.sendFrame conn (syncFrame Y address (.syncStep2 step2))).1
    (w.sendFrame conn (syncFrame Y address (.syncStep1 serverSv))).1
  | some (.syncStep2 update) | some (.update update) =>
    if conn.readOnly then w.sendSyncStatus conn.connId address false
    else
      let checked := w.beforeHandleMessage o conn.connId update origin
      if checked.2 then
        (checked.1.applyAndBroadcast o update origin).sendSyncStatus conn.connId address true
      else checked.1

/-- `client_ids.insert` for each id. -/
def claimClients (changed : List Nat) (conn : ConnHandle) : ConnHandle :=
  { conn with clientIds := changed.foldl (fun ids cid => ids.insert cid) conn.clientIds }

@[simp] theorem claimClients_connId (changed : List Nat) (conn : ConnHandle) :
    (claimClients changed conn).connId = conn.connId := rfl

/-- The end of `handle_awareness`: the changed entries go to everyone. -/
def relayAwareness (w : World Y) (changed : List Nat) (origin : Origin) : World Y :=
  match Y.updateWithClients w.awareness changed with
  | none => w
  | some out =>
    let bytes := Y.encodeAwareness out
    (w.broadcastAwareness bytes).emit (.onAwarenessUpdate bytes changed origin)

def handleAwareness (w : World Y) (frame : IncomingFrame) (origin : Origin) : World Y :=
  match Y.readBuf frame.decoder with
  | (none, _) => w
  | (some buf, _) =>
    match Y.decodeAwareness buf with
    | none => w
    | some update =>
      let changed := Y.clients update
      let applied := Y.applyAwareness w.awareness update
      let w := { w with awareness := applied.1 }
      if !applied.2 then w
      else
        let w :=
          match origin with
          | .connection connId =>
            { w with connections :=
                w.connections.modify connId (claimClients changed) (claimClients_connId changed) }
          | _ => w
        w.relayAwareness changed origin

def replyQueryAwareness (w : World Y) (address : String) (connId : Nat) : World Y :=
  match Y.awarenessUpdate w.awareness with
  | none => w
  | some update =>
    match w.connections.get? connId with
    | none => w
    | some conn =>
      (w.sendFrame conn ((OutgoingMessage.new Y address).awarenessUpdate Y
        (Y.encodeAwareness update)).intoBytes).1

def handleStateless (w : World Y) (conn : ConnHandle) (frame : IncomingFrame) : World Y :=
  match Y.readString frame.decoder with
  | (none, _) => w
  | (some payload, _) => w.emit (.onStateless conn.socketId payload)

def closeConnection (w : World Y) (connId : Nat) (event : CloseEvent) : World Y :=
  let w :=
    match w.connections.get? connId with
    | some conn => w.sendClose conn event
    | none => w
  w.removeConnection connId

def handleClientFrame (o : Ambient) (w : World Y) (connId : Nat) (data : Bytes) : World Y :=
  match w.connections.get? connId with
  | none => w
  | some conn =>
    match IncomingFrame.parse Y data with
    | none => w
    | some frame =>
      let address := conn.messageAddress
      let origin := Origin.connection connId
      match frame.messageType with
      | .sync | .syncReply => w.handleSync o conn address origin frame
      | .awareness => w.handleAwareness frame origin
      | .queryAwareness => w.replyQueryAwareness address connId
      | .stateless => w.handleStateless conn frame
      | .close => w.closeConnection connId ⟨1000, "provider_initiated"⟩
      | .auth => w -- `handle_token_sync` accepts re-authentication as a no-op
      | .broadcastStateless => w.closeConnection connId resetConnection
      | .syncStatus | .ping | .pong => w

def handleExternalSync (o : Ambient) (w : World Y) (frame : IncomingFrame) (origin : Origin)
    (reply : Bool) : World Y :=
  match Y.decodeSync frame.decoder with
  | none => w
  | some (.syncStep1 clientSv) =>
    if reply then
      w.emit (.reply ((((OutgoingMessage.new Y w.name).syncReply Y).writeSyncPayload
        (Y.encodeSync (.syncStep2 (Y.encodeDiff w.doc clientSv)))).intoBytes))
    else w
  | some (.syncStep2 update) | some (.update update) => w.applyAndBroadcast o update origin

def handleExternalFrame (o : Ambient) (w : World Y) (data : Bytes) (reply : Bool) : World Y :=
  match IncomingFrame.parse Y data with
  | none => w
  | some frame =>
    let origin := Origin.redis
    match frame.messageType with
    | .sync | .syncReply => w.handleExternalSync o frame origin reply
    | .awareness => w.handleAwareness frame origin
    | .queryAwareness =>
      if reply then
        match Y.awarenessUpdate w.awareness with
        | some update =>
          w.emit (.reply (((OutgoingMessage.new Y w.name).awarenessUpdate Y
            (Y.encodeAwareness update)).intoBytes))
        | none => w
      else w
    | .broadcastStateless =>
      match Y.readString frame.decoder with
      | (some payload, _) => w.broadcastStateless payload
      | (none, _) => w
    | _ => w

def flushBroadcast (w : World Y) : World Y :=
  if !w.broadcastPending then w
  else
    let taken := w.broadcastBase
    let w := { w with broadcastPending := false, broadcastBase := none }
    match taken with
    | none => w
    | some base =>
      let merged := Y.encodeDiff w.doc base
      if merged.isEmpty then w
      else
        let body := Y.encodeSync (.update merged)
        w.broadcastWith fun addr =>
          (((OutgoingMessage.new Y addr).sync Y).writeSyncPayload body).intoBytes

def storeDeadline (cfg : Configuration) (w : World Y) : Option Nat :=
  if !w.dirty || w.storing then none
  else
    match w.lastChangeAt, w.firstDirtyAt with
    | some last, some first => some (min (last + cfg.debounce) (first + cfg.maxDebounce))
    | _, _ => none

/-- Both stores lower the three fields together. -/
def clean (w : World Y) : World Y :=
  { w with dirty := false, firstDirtyAt := none, lastChangeAt := none }

/-- `spawn_store`: the actor takes the snapshot and goes on, and the hooks run on a
task of their own. -/
def spawnStore (w : World Y) : World Y :=
  if !w.dirty || w.storing then w
  else
    let state := Y.encodeState w.doc
    { w.clean with storing := true, storeTasks := w.storeTasks ++ [state] }.emit (.snapshot state)

/-- A spawned store task has run its hooks, which answered `results`, and reports. -/
def finishStore (w : World Y) (i : Nat) (results : List HookResult) : World Y :=
  match w.storeTasks[i]? with
  | none => w
  | some state =>
    let ok := (firstError results).isNone
    let w := w.emit (.stored state ok)
    { w with storeTasks := w.storeTasks.eraseIdx i, storeResults := w.storeResults ++ [ok] }

def runStore (results : List HookResult) (w : World Y) : World Y :=
  if !w.dirty then w
  else
    let state := Y.encodeState w.doc
    let ok := (firstError results).isNone
    let w := (w.emit (.snapshot state)).emit (.stored state ok)
    if ok then w.clean else w

/-- `maybe_unload`: true if the actor removed itself from the registry and
should exit. It still awaits the `after_unload_document` hooks then, which can
change nothing of it. -/
def maybeUnload (cfg : Configuration) (o : Ambient) (w : World Y) : World Y × Bool :=
  if !w.connections.isEmpty then (w, false)
  else if w.storing then (w, false)
  else if !cfg.unloadImmediately && w.dirty then (w, false)
  else
    let w := if w.dirty then w.runStore o.onStoreUnload else w
    if !w.connections.isEmpty then (w, false)
    else
      let w := w.emit .beforeUnload
      if (firstError o.beforeUnload).isSome then (w, false) else (w.emit .unloaded, true)

def handleCommand (cfg : Configuration) (o : Ambient) (w : World Y) :
    DocCommand → World Y × Bool
  | .addConnection handle ack => ((w.addConnection o.order handle).emit (.ack ack), false)
  | .clientFrame connId data => (w.handleClientFrame o connId data, false)
  | .removeConnection connId => (w.removeConnection connId).maybeUnload cfg o
  | .externalFrame data reply => (w.handleExternalFrame o data reply, false)
  | .directApply update ack => ((w.applyAndBroadcast o update .local).emit (.ack ack), false)

end World

end Hocuspocus
