import Hocuspocus.Document.Close

/-!
# What a step does to connections and presence

A step of the actor does many things, but at most one of them concerns who
is connected and who is present: a connection joins, asks for the presence
table, announces presence, or leaves, or something else is broadcast to
everyone. `Act` names these and `Act.run` is the handler behind each; all the
rest of a step is `Inert`: it changes neither the connection map nor the presence
table, and what it writes is neither a join, a departure or an announcement nor a
frame that carries presence. `Actor.step_turn` is the normal form the results about
presence and departures start from: inert, the act, inert.

The normal form is proved handler by handler. First come the handlers that are
inert throughout: the sync messages (an update is applied at once, but sent to the
clients only with the flush), the stores, the unload. A `Close` that is put into a
queue is inert as well, since the connection stays in the map until it is removed.
Then each command and the flush are traced to their act, with the broadcast that
`Document/Close.lean` gives for the same step (`Act.call`), so that what is proved
there about the queues of a broadcast can be used here.

A broadcast can evict, so each act also takes out whoever it finds full. What becomes
of those is the subject of `Document/Presence.lean`: they are gone, and so are the
presence states they have claimed.
-/

namespace Hocuspocus

variable {Y : Yrs}

/-! ## Inert parts -/

/-- A frame that is not about presence. -/
def OtherFrame (Y : Yrs) (bytes : Bytes) : Prop :=
  ∃ address ty payload, ty ≠ MessageType.awareness ∧
    bytes = ((OutgoingMessage.new Y address).writeOpcode Y ty).encoder ++ payload

/-- A frame, or a connection or a presence that comes or goes. -/
def Event.isPersonal : Event Y → Bool
  | .frame .. => true
  | .added _ => true
  | .onDisconnect _ _ => true
  | .onAwarenessUpdate _ _ _ => true
  | _ => false

/-- Nobody joins, leaves or is announced by it. -/
inductive Event.Inert : Event Y → Prop
  | other {e : Event Y} (h : e.isPersonal = false) : Event.Inert e
  | frame {connId q : Nat} {bytes : Bytes} {res : SendResult} (h : OtherFrame Y bytes) :
    Event.Inert (.frame connId q bytes res)

structure Inert (w w' : World Y) : Prop where
  trace : ∃ k, w'.trace = w.trace ++ k ∧ ∀ e ∈ k, e.Inert
  connections : w'.connections = w.connections
  awareness : w'.awareness = w.awareness
  name : w'.name = w.name

/-- Nothing is written, and the three parts are as they were. -/
theorem Inert.of_eq {w w' : World Y} (htrace : w'.trace = w.trace)
    (hconns : w'.connections = w.connections) (hawareness : w'.awareness = w.awareness)
    (hname : w'.name = w.name) : Inert w w' :=
  ⟨⟨[], by rw [htrace, List.append_nil], nofun⟩, hconns, hawareness, hname⟩

theorem Inert.refl (w : World Y) : Inert w w := Inert.of_eq rfl rfl rfl rfl

/-- Inert parts follow one another. -/
theorem Inert.trans {w₁ w₂ w₃ : World Y} (h₁ : Inert w₁ w₂) (h₂ : Inert w₂ w₃) : Inert w₁ w₃ := by
  obtain ⟨k₁, htrace₁, hk₁⟩ := h₁.trace
  obtain ⟨k₂, htrace₂, hk₂⟩ := h₂.trace
  refine ⟨⟨k₁ ++ k₂, by rw [htrace₂, htrace₁, List.append_assoc], ?_⟩,
    h₂.connections.trans h₁.connections, h₂.awareness.trans h₁.awareness, h₂.name.trans h₁.name⟩
  exact fun e he => (List.mem_append.mp he).elim (hk₁ e) (hk₂ e)

/-- What carries the document has the opcode of sync messages ... -/
theorem otherFrame_sync (address : String) (msg : SyncMessage Y.StateVector) :
    OtherFrame Y (World.syncFrame Y address msg) :=
  ⟨address, .sync, _, by decide, rfl⟩

/-- ... a sync status has its own ... -/
theorem otherFrame_status (address : String) (saved : Bool) :
    OtherFrame Y (World.statusFrame Y address saved) :=
  ⟨address, .syncStatus, _, by decide, rfl⟩

/-- ... and so has a stateless message: none is about presence. -/
theorem otherFrame_stateless (address payload : String) :
    OtherFrame Y (((OutgoingMessage.new Y address).stateless Y payload).intoBytes) :=
  ⟨address, .stateless, _, by decide, rfl⟩

namespace World

/-- To log anything but a frame, a join, a departure or an announcement is inert ... -/
theorem emit_inert (w : World Y) {e : Event Y} (he : e.isPersonal = false) : Inert w (w.emit e) :=
  ⟨⟨[e], rfl, fun _ hmem => List.mem_singleton.mp hmem ▸ .other he⟩, rfl, rfl, rfl⟩

/-- ... and so is a frame that is not about presence. -/
theorem emit_frame_inert (w : World Y) {connId q : Nat} {bytes : Bytes} {res : SendResult}
    (h : OtherFrame Y bytes) : Inert w (w.emit (.frame connId q bytes res)) :=
  ⟨⟨[_], rfl, fun _ hmem => List.mem_singleton.mp hmem ▸ .frame h⟩, rfl, rfl, rfl⟩

/-- What the writers and the other documents of a socket do to the queues is inert. -/
theorem poll_inert (w : World Y) : Inert w w.poll := by
  unfold poll
  split
  · exact Inert.refl w
  · exact Inert.of_eq rfl rfl rfl rfl

theorem trySend_inert (w : World Y) (q : Nat) (m : OutMsg) : Inert w (w.trySend q m).1 :=
  w.poll_inert.trans (Inert.of_eq rfl rfl rfl rfl)

/-- A frame is inert whether its queue takes it or not: a refusal alone removes
nobody, only a broadcast acts on it. -/
theorem sendFrame_inert (w : World Y) (conn : ConnHandle) {frame : Bytes}
    (hframe : OtherFrame Y frame) : Inert w (w.sendFrame conn frame).1 :=
  (w.trySend_inert _ _).trans (emit_frame_inert _ hframe)

/-- A `Close` is put into the queue, but the connection stays in the map. -/
theorem sendClose_inert (w : World Y) (conn : ConnHandle) (event : CloseEvent) :
    Inert w (w.sendClose conn event) :=
  (w.trySend_inert _ _).trans (emit_inert _ rfl)

/-- A rejected update closes the socket in this way only, so its sender stays in the
map. -/
theorem rejectMessage_inert (w : World Y) (connId : Nat) (e : HookError) :
    Inert w (w.rejectMessage connId e) := by
  unfold rejectMessage
  split
  · exact w.sendClose_inert _ _
  · exact Inert.refl w

/-- The hooks are asked, and may reject. -/
theorem beforeHandleMessage_inert (o : Ambient) (w : World Y) (connId : Nat) (update : Bytes)
    (origin : Origin) : Inert w (w.beforeHandleMessage o connId update origin).1 := by
  unfold beforeHandleMessage
  dsimp only
  split
  · exact emit_inert w rfl
  · exact (emit_inert w rfl).trans (rejectMessage_inert _ _ _)

theorem sendSyncStatus_inert (w : World Y) (connId : Nat) (address : String) (saved : Bool) :
    Inert w (w.sendSyncStatus connId address saved) := by
  unfold sendSyncStatus
  split
  · exact w.sendFrame_inert _ (otherFrame_status _ _)
  · exact Inert.refl w

/-- A change is announced to the hooks, and left to the flush for the clients. -/
theorem noteChange_inert (o : Ambient) (w : World Y) (baseBefore : Option Y.StateVector)
    (computed : Bytes) (origin : Origin) : Inert w (w.noteChange o baseBefore computed origin) := by
  unfold noteChange
  split
  · exact Inert.refl w
  · refine Inert.trans ?_ (emit_inert _ rfl)
    exact Inert.of_eq rfl rfl rfl rfl

/-- An update changes the document; its frames go out with the flush, not here. -/
theorem applyAndBroadcast_inert (o : Ambient) (w : World Y) (update : Bytes) (origin : Origin) :
    Inert w (w.applyAndBroadcast o update origin) := by
  unfold applyAndBroadcast
  dsimp only
  split
  · exact Inert.refl w
  · split
    · exact Inert.of_eq rfl rfl rfl rfl
    · refine Inert.trans (Inert.trans ?_ (emit_inert _ rfl)) (noteChange_inert _ _ _ _ _)
      exact Inert.of_eq rfl rfl rfl rfl

/-- A sync message is answered to its sender alone, and can remove nobody. -/
theorem handleSync_inert (o : Ambient) (w : World Y) (conn : ConnHandle) (address : String)
    (origin : Origin) (frame : IncomingFrame) :
    Inert w (w.handleSync o conn address origin frame) := by
  have hupdate : ∀ update : Bytes, Inert w
      (if conn.readOnly then w.sendSyncStatus conn.connId address false
        else
          let checked := w.beforeHandleMessage o conn.connId update origin
          if checked.2 then
            (checked.1.applyAndBroadcast o update origin).sendSyncStatus conn.connId address true
          else checked.1) := by
    intro update
    have hchecked := w.beforeHandleMessage_inert o conn.connId update origin
    split
    · exact w.sendSyncStatus_inert _ _ _
    · dsimp only
      split
      · exact (hchecked.trans (applyAndBroadcast_inert _ _ _ _)).trans (sendSyncStatus_inert _ _ _ _)
      · exact hchecked
  unfold handleSync
  split
  · exact Inert.refl w
  · exact (w.sendFrame_inert conn (otherFrame_sync _ _)).trans
      (sendFrame_inert _ conn (otherFrame_sync _ _))
  · exact hupdate _
  · exact hupdate _

theorem handleStateless_inert (w : World Y) (conn : ConnHandle) (frame : IncomingFrame) :
    Inert w (w.handleStateless conn frame) := by
  unfold handleStateless
  split
  · exact Inert.refl w
  · exact emit_inert w rfl

/-- One from a peer node is answered through the reply channel, if at all. -/
theorem handleExternalSync_inert (o : Ambient) (w : World Y) (frame : IncomingFrame)
    (origin : Origin) (reply : Bool) : Inert w (w.handleExternalSync o frame origin reply) := by
  unfold handleExternalSync
  split
  · exact Inert.refl w
  · split
    · exact emit_inert w rfl
    · exact Inert.refl w
  · exact w.applyAndBroadcast_inert o _ _
  · exact w.applyAndBroadcast_inert o _ _

theorem withSched_inert (w : World Y) (sched : List (List QueueAct)) : Inert w (w.withSched sched) :=
  Inert.of_eq rfl rfl rfl rfl

/-- A store reads the document and clears the timers. -/
theorem runStore_inert (results : List HookResult) (w : World Y) : Inert w (w.runStore results) := by
  unfold runStore
  split
  · exact Inert.refl w
  · have hstored : ∀ state ok, Inert w ((w.emit (.snapshot state)).emit (.stored state ok)) :=
      fun _ _ => (emit_inert w rfl).trans (emit_inert _ rfl)
    dsimp only
    split
    · exact (hstored _ _).trans (Inert.of_eq rfl rfl rfl rfl)
    · exact hstored _ _

/-- A store on a task of its own touches the actor when it is spawned ... -/
theorem spawnStore_inert (w : World Y) : Inert w w.spawnStore := by
  unfold spawnStore
  split
  · exact Inert.refl w
  · refine Inert.trans ?_ (emit_inert _ rfl)
    exact Inert.of_eq rfl rfl rfl rfl

/-- ... and when it reports. -/
theorem finishStore_inert (w : World Y) (i : Nat) (results : List HookResult) :
    Inert w (w.finishStore i results) := by
  unfold finishStore
  split
  · exact Inert.refl w
  · exact (emit_inert w rfl).trans (Inert.of_eq rfl rfl rfl rfl)

theorem takeResult_inert (o : Ambient) (w : World Y) (ok : Bool) (rest : List Bool) :
    Inert w (w.takeResult o ok rest) := by
  unfold takeResult
  cases ok <;> exact Inert.of_eq rfl rfl rfl rfl

/-- To unload is no departure: it happens only when the map is empty already. -/
theorem maybeUnload_inert (cfg : Configuration) (o : Ambient) (w : World Y) :
    Inert w (w.maybeUnload cfg o).1 := by
  rcases w.maybeUnload_cases cfg o with hstay | ⟨_, _, _, heq⟩
  · rw [hstay]
    exact Inert.refl w
  · have hstore : Inert w (w.storeIfDirty o.onStoreUnload) := by
      unfold storeIfDirty
      split
      · exact runStore_inert _ w
      · exact Inert.refl w
    have hasked := hstore.trans (emit_inert _ (e := .beforeUnload) rfl)
    rw [heq]
    split
    · exact hasked
    · exact hasked.trans (emit_inert _ rfl)

/-- A timer stores, and may unload. -/
theorem tick_inert (cfg : Configuration) (o : Ambient) (w : World Y) :
    Inert w (w.tick cfg o).1 := by
  unfold tick
  split
  · exact (w.runStore_inert _).trans (maybeUnload_inert cfg o _)
  · exact w.spawnStore_inert

end World

/-! ## Acts -/

/-- The one thing a step does to connections or presence. -/
inductive Act
  | idle
  | join (order : Reorder ConnHandle) (handle : ConnHandle)
  | answer (connId : Nat) (address : String)
  | present (frame : IncomingFrame) (origin : Origin)
  | leave (connId : Nat)
  | cast (build : String → Bytes)

def Act.run (w : World Y) : Act → World Y
  | .idle => w
  | .join order handle => w.addConnection order handle
  | .answer connId address => w.replyQueryAwareness address connId
  | .present frame origin => w.handleAwareness frame origin
  | .leave connId => w.removeConnection connId
  | .cast build => w.broadcastWith build

/-- The broadcast an act makes. -/
def Act.call (w : World Y) : Act → Option (World.Broadcast Y)
  | .present frame origin => w.awarenessBroadcast frame origin
  | .leave connId => w.removeBroadcast connId
  | .cast build => some (w, build)
  | _ => none

/-- What is cast is not about presence. -/
def Act.Plain (Y : Yrs) : Act → Prop
  | .cast build => ∀ address, OtherFrame Y (build address)
  | _ => True

namespace World

/-- The act of a client's frame. -/
def frameAct (w : World Y) (connId : Nat) (data : Bytes) : Act :=
  match w.connections.get? connId with
  | none => .idle
  | some conn =>
    match IncomingFrame.parse Y data with
    | none => .idle
    | some frame =>
      match frame.messageType with
      | .awareness => .present frame (.connection connId)
      | .queryAwareness => .answer connId conn.messageAddress
      | .close => .leave connId
      | .broadcastStateless => .leave connId
      | _ => .idle

def statelessFrame (Y : Yrs) (payload addr : String) : Bytes :=
  ((OutgoingMessage.new Y addr).stateless Y payload).intoBytes

/-- The act of a frame from a peer node. -/
def externalAct (Y : Yrs) (data : Bytes) : Act :=
  match IncomingFrame.parse Y data with
  | none => .idle
  | some frame =>
    match frame.messageType with
    | .awareness => .present frame .redis
    | .broadcastStateless =>
      match Y.readString frame.decoder with
      | (some payload, _) => .cast (statelessFrame Y payload)
      | (none, _) => .idle
    | _ => .idle

def commandAct (o : Ambient) (w : World Y) : DocCommand → Act
  | .addConnection handle _ => .join o.order handle
  | .clientFrame connId data => w.frameAct connId data
  | .removeConnection connId => .leave connId
  | .externalFrame data _ => externalAct Y data
  | .directApply _ _ => .idle

def flushAct (w : World Y) : Act :=
  match w.flushBroadcastCall with
  | none => .idle
  | some (_, build) => .cast build

end World

def Actor.act (a : Actor Y) : Label → Act
  | .command cmd o => a.world.commandAct o cmd
  | .flush sched => (a.world.withSched sched).flushAct
  | _ => .idle

/-- Inert, the act, inert; the broadcast of the act is `call`. -/
def Turns (act : Act) (call : Option (World.Broadcast Y)) (w w' : World Y) : Prop :=
  ∃ v, Inert w v ∧ act.call v = call ∧ act.Plain Y ∧ Inert (act.run v) w'

/-- A step that is inert throughout. -/
theorem Turns.idle {w w' : World Y} (h : Inert w w') : Turns .idle none w w' :=
  ⟨w, Inert.refl w, rfl, trivial, h⟩

/-- Something inert may follow. -/
theorem Turns.then_inert {act : Act} {call : Option (World.Broadcast Y)} {w₁ w₂ w₃ : World Y}
    (h₁ : Turns act call w₁ w₂) (h₂ : Inert w₂ w₃) : Turns act call w₁ w₃ := by
  obtain ⟨v, hbefore, hcall, hplain, hafter⟩ := h₁
  exact ⟨v, hbefore, hcall, hplain, hafter.trans h₂⟩

/-- Something inert, and the act last. -/
theorem Turns.of_run {act : Act} {w v w' : World Y} (hv : Inert w v) (hplain : act.Plain Y)
    (h : act.run v = w') : Turns act (act.call v) w w' :=
  ⟨v, hv, rfl, hplain, h ▸ Inert.refl _⟩

namespace World

/-- A client's frame: presence is announced, the table is asked for, the client
leaves, or the frame is about the document. By the message type. -/
theorem handleClientFrame_turns (o : Ambient) (w : World Y) (connId : Nat) (data : Bytes) :
    Turns (w.frameAct connId data) (w.frameBroadcast connId data) w
      (w.handleClientFrame o connId data) := by
  unfold frameAct frameBroadcast handleClientFrame
  cases hconn : w.connections.get? connId with
  | none => exact .idle (Inert.refl w)
  | some conn =>
    cases hparse : IncomingFrame.parse Y data with
    | none => exact .idle (Inert.refl w)
    | some frame =>
      have hclose : ∀ event : CloseEvent, Turns (.leave connId) (w.closeBroadcast connId event) w
          (w.closeConnection connId event) := by
        intro event
        unfold closeBroadcast closeConnection
        rw [hconn]
        exact .of_run (w.sendClose_inert conn event) trivial rfl
      dsimp only
      cases htype : frame.messageType with
      | sync => exact .idle (w.handleSync_inert o conn _ _ frame)
      | syncReply => exact .idle (w.handleSync_inert o conn _ _ frame)
      | awareness => exact .of_run (Inert.refl w) trivial rfl
      | queryAwareness =>
        exact ⟨w, Inert.refl w, rfl, trivial, Inert.refl _⟩
      | stateless => exact .idle (w.handleStateless_inert conn frame)
      | close => exact hclose _
      | broadcastStateless => exact hclose _
      | auth | syncStatus | ping | pong => exact .idle (Inert.refl w)

/-- A frame from a peer node: presence is announced, a stateless payload is broadcast,
or it is about the document. -/
theorem handleExternalFrame_turns (o : Ambient) (w : World Y) (data : Bytes) (reply : Bool) :
    Turns (externalAct Y data) (w.externalBroadcast data) w
      (w.handleExternalFrame o data reply) := by
  unfold externalAct externalBroadcast handleExternalFrame
  cases IncomingFrame.parse Y data with
  | none => exact .idle (Inert.refl w)
  | some frame =>
    dsimp only
    cases frame.messageType with
    | sync => exact .idle (w.handleExternalSync_inert o frame _ reply)
    | syncReply => exact .idle (w.handleExternalSync_inert o frame _ reply)
    | awareness => exact .of_run (Inert.refl w) trivial rfl
    | queryAwareness =>
      refine .idle ?_
      dsimp only
      split
      · split
        · exact emit_inert w rfl
        · exact Inert.refl w
      · exact Inert.refl w
    | broadcastStateless =>
      cases Y.readString frame.decoder with
      | mk payload rest =>
        cases payload with
        | none => exact .idle (Inert.refl w)
        | some payload =>
          exact .of_run (Inert.refl w) (fun addr => otherFrame_stateless addr payload) rfl
    | stateless | close | auth | syncStatus | ping | pong => exact .idle (Inert.refl w)

/-- A command, by its kind. Only the departure of a connection has something inert
behind it, the check for an unload. -/
theorem handleCommand_turns (cfg : Configuration) (o : Ambient) (w : World Y) (cmd : DocCommand) :
    Turns (w.commandAct o cmd) (w.commandBroadcast cmd) w (w.handleCommand cfg o cmd).1 := by
  cases cmd with
  | addConnection handle ack =>
    have hjoin : Turns (.join o.order handle) none w (w.addConnection o.order handle) :=
      ⟨w, Inert.refl w, rfl, trivial, Inert.refl _⟩
    exact hjoin.then_inert (emit_inert _ rfl)
  | clientFrame connId data => exact w.handleClientFrame_turns o connId data
  | removeConnection connId =>
    have hleave : Turns (.leave connId) (w.removeBroadcast connId) w (w.removeConnection connId) :=
      .of_run (Inert.refl w) trivial rfl
    exact hleave.then_inert (maybeUnload_inert cfg o _)
  | externalFrame data reply => exact w.handleExternalFrame_turns o data reply
  | directApply update ack =>
    exact .idle ((w.applyAndBroadcast_inert o update .local).trans (emit_inert _ rfl))

/-- The end of a batch broadcasts what has changed, if anything has. -/
theorem flushBroadcast_turns (w : World Y) :
    Turns w.flushAct w.flushBroadcastCall w w.flushBroadcast := by
  have hreset : Inert w { w with broadcastPending := false, broadcastBase := none } :=
    Inert.of_eq rfl rfl rfl rfl
  unfold flushAct flushBroadcastCall flushBroadcast
  cases w.broadcastPending with
  | false => exact .idle (Inert.refl w)
  | true =>
    cases w.broadcastBase with
    | none => exact .idle hreset
    | some base =>
      dsimp only
      cases (Y.encodeDiff w.doc base).isEmpty with
      | true => exact .idle hreset
      | false => exact .of_run hreset (fun addr => otherFrame_sync addr _) rfl

end World

/-- **The normal form of a step**: one act, and nothing else that concerns
connections or presence. -/
theorem Actor.step_turn {cfg : Configuration} {a b : Actor Y} {l : Label}
    (hstep : a.step cfg l = some b) : Turns (a.act l) (a.broadcastCall l) a.world b.world := by
  have hsched : ∀ {act : Act} {call : Option (World.Broadcast Y)} {sched : List (List QueueAct)}
      {w' : World Y}, Turns act call (a.world.withSched sched) w' → Turns act call a.world w' := by
    rintro act call sched w' ⟨v, hv, hrest⟩
    exact ⟨v, (a.world.withSched_inert sched).trans hv, hrest⟩
  cases Actor.step_cases hstep with
  | command cmd o n hphase =>
    exact hsched (World.handleCommand_turns cfg o (a.world.withSched o.sched) cmd)
  | flush sched phase hphase => exact hsched (World.flushBroadcast_turns (a.world.withSched sched))
  | storeResult o ok rest hphase hresults =>
    exact .idle (((a.world.withSched_inert o.sched).trans (World.takeResult_inert o _ ok rest)).trans
      (World.maybeUnload_inert cfg o _))
  | deadline o hphase hdirty hstoring =>
    exact .idle ((a.world.withSched_inert o.sched).trans (World.tick_inert cfg o _))
  | mailboxClosed hphase => exact .idle (Inert.refl _)
  | storeTask i results hi => exact .idle (World.finishStore_inert _ i results)
  | queues acts => exact .idle (Inert.of_eq rfl rfl rfl rfl)

end Hocuspocus
