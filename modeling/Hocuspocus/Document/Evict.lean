import Hocuspocus.Document.Delivery
import Hocuspocus.OneWriter

/-!
# Full queues

`send_frame` reports a full queue, and a broadcast acts on it: it evicts the
connection. The frames sent straight to one connection (its greeting, the
answers to its requests, its sync status) go through the same call and drop
the report.

The two kinds of send are kept apart:

* `Silent`: no frame at all. Stores, unloading and the hooks are silent, and
  so is an applied update, whose frames wait for the flush.
* `Evicts`: whoever had a frame refused is gone afterwards, and nobody has
  joined. Broadcasts are the only senders here, and `broadcastWith_evicts` is
  where the eviction comes from; everything else composes it.
* `Answers`: a known list of frames goes to one connection, which is in the
  map afterwards. `directSends` is that list as a function of the command, and
  `queueTakes` follows the queue through it, writer's turns included.

Every command is of the second or of the third kind (`handleCommand_cases`),
so a step leaves nobody behind exactly when the queue takes what the step
sends straight (`Actor.noneMissed_iff`), and over a run the connections in the
map have missed nothing. That last part needs the ids of newcomers to be
fresh, as the counter makes them: the trace remembers refusals by id.

The close an evicted connection is owed goes through the queue that was just
found full. It has a module of its own.
-/

namespace Hocuspocus

variable {Y : Yrs}

/-- A frame to the connection was dropped because its queue was full. -/
def Refused (connId : Nat) (t : List (Event Y)) : Prop :=
  ∃ q bytes, Event.frame connId q bytes .full ∈ t

/-- A protocol frame, accepted or not, as opposed to a close, a hook or an internal
note. -/
def Event.isFrame : Event Y → Bool
  | .frame .. => true
  | _ => false

/-- What was refused in two stretches was refused in one of them. -/
theorem refused_append {connId : Nat} {t₁ t₂ : List (Event Y)} :
    Refused connId (t₁ ++ t₂) ↔ Refused connId t₁ ∨ Refused connId t₂ := by
  unfold Refused
  constructor
  · rintro ⟨q, bytes, h⟩
    rcases List.mem_append.mp h with h | h
    · exact Or.inl ⟨q, bytes, h⟩
    · exact Or.inr ⟨q, bytes, h⟩
  · rintro (⟨q, bytes, h⟩ | ⟨q, bytes, h⟩)
    · exact ⟨q, bytes, List.mem_append_left _ h⟩
    · exact ⟨q, bytes, List.mem_append_right _ h⟩

/-- The same, one event at a time. -/
theorem refused_cons {connId : Nat} {e : Event Y} {t : List (Event Y)} :
    Refused connId (e :: t) ↔ Refused connId [e] ∨ Refused connId t := by
  rw [← List.singleton_append, refused_append]

/-- Where no frame is sent, none is refused. -/
theorem not_refused {connId : Nat} {t : List (Event Y)} (h : ∀ e ∈ t, e.isFrame = false) :
    ¬ Refused connId t := by
  rintro ⟨q, bytes, hmem⟩
  cases h _ hmem

/-! ## What sends nothing -/

/-- No frame is sent, and the connections stay. -/
structure Silent (w w' : World Y) : Prop where
  trace : ∃ k, w'.trace = w.trace ++ k ∧ ∀ e ∈ k, e.isFrame = false
  connections : w'.connections = w.connections
  queues : w'.queues = w.queues
  sched : w'.sched = w.sched

/-- Doing nothing is silent. -/
theorem Silent.refl (w : World Y) : Silent w w :=
  ⟨⟨[], (List.append_nil _).symm, nofun⟩, rfl, rfl, rfl⟩

/-- Silence after silence: the stretches of the trace are joined. -/
theorem Silent.trans {w₁ w₂ w₃ : World Y} (h₁ : Silent w₁ w₂) (h₂ : Silent w₂ w₃) :
    Silent w₁ w₃ := by
  obtain ⟨k₁, htrace₁, hk₁⟩ := h₁.trace
  obtain ⟨k₂, htrace₂, hk₂⟩ := h₂.trace
  refine ⟨⟨k₁ ++ k₂, by rw [htrace₂, htrace₁, List.append_assoc], ?_⟩,
    h₂.connections.trans h₁.connections, h₂.queues.trans h₁.queues, h₂.sched.trans h₁.sched⟩
  exact fun e he => (List.mem_append.mp he).elim (hk₁ e) (hk₂ e)

/-- Only what a client cannot see changes. -/
theorem Silent.of_eq {w w' : World Y} (htrace : w'.trace = w.trace)
    (hconns : w'.connections = w.connections) (hqueues : w'.queues = w.queues)
    (hsched : w'.sched = w.sched) : Silent w w' :=
  ⟨⟨[], by rw [htrace, List.append_nil], nofun⟩, hconns, hqueues, hsched⟩

namespace World

/-- A note in the trace that is no frame. -/
theorem emit_silent (w : World Y) {e : Event Y} (he : e.isFrame = false) : Silent w (w.emit e) :=
  ⟨⟨[e], rfl, fun _ hmem => List.mem_singleton.mp hmem ▸ he⟩, rfl, rfl, rfl⟩

/-- Noting a change only schedules the broadcast; the frames come with the flush. -/
theorem noteChange_silent (o : Ambient) (w : World Y) (baseBefore : Option Y.StateVector)
    (computed : Bytes) (origin : Origin) : Silent w (w.noteChange o baseBefore computed origin) := by
  unfold noteChange
  split
  · exact Silent.refl w
  · refine Silent.trans ?_ (emit_silent _ rfl)
    exact Silent.of_eq rfl rfl rfl rfl

/-- Despite its name an applied update sends nothing yet. -/
theorem applyAndBroadcast_silent (o : Ambient) (w : World Y) (update : Bytes) (origin : Origin) :
    Silent w (w.applyAndBroadcast o update origin) := by
  unfold applyAndBroadcast
  dsimp only
  split
  · exact Silent.refl w
  · split
    · exact Silent.of_eq rfl rfl rfl rfl
    · refine Silent.trans (Silent.trans ?_ (emit_silent _ rfl)) (noteChange_silent _ _ _ _ _)
      exact Silent.of_eq rfl rfl rfl rfl

/-- A store run inline awaits its hooks and touches no queue. -/
theorem runStore_silent (results : List HookResult) (w : World Y) :
    Silent w (w.runStore results) := by
  unfold runStore
  split
  · exact Silent.refl w
  · have hstored : ∀ state ok, Silent w ((w.emit (.snapshot state)).emit (.stored state ok)) :=
      fun _ _ => (emit_silent w rfl).trans (emit_silent _ rfl)
    dsimp only
    split
    · exact (hstored _ _).trans (Silent.of_eq rfl rfl rfl rfl)
    · exact hstored _ _

/-- A store handed to a task ... -/
theorem spawnStore_silent (w : World Y) : Silent w w.spawnStore := by
  unfold spawnStore
  split
  · exact Silent.refl w
  · refine Silent.trans ?_ (emit_silent _ rfl)
    exact Silent.of_eq rfl rfl rfl rfl

/-- ... its hooks and its result ... -/
theorem finishStore_silent (w : World Y) (i : Nat) (results : List HookResult) :
    Silent w (w.finishStore i results) := by
  unfold finishStore
  split
  · exact Silent.refl w
  · exact (emit_silent w rfl).trans (Silent.of_eq rfl rfl rfl rfl)

/-- ... and the result taken in: no client sees any of it. -/
theorem takeResult_silent (o : Ambient) (w : World Y) (ok : Bool) (rest : List Bool) :
    Silent w (w.takeResult o ok rest) := by
  unfold takeResult
  cases ok <;> exact Silent.of_eq rfl rfl rfl rfl

/-- Unloading sends nothing: it only happens when nobody is connected. -/
theorem maybeUnload_silent (cfg : Configuration) (o : Ambient) (w : World Y) :
    Silent w (w.maybeUnload cfg o).1 := by
  rcases w.maybeUnload_cases cfg o with hstay | ⟨_, _, _, heq⟩
  · rw [hstay]
    exact Silent.refl w
  · have hstore : Silent w (w.storeIfDirty o.onStoreUnload) := by
      unfold storeIfDirty
      split
      · exact runStore_silent _ w
      · exact Silent.refl w
    have hasked := hstore.trans (emit_silent _ (e := .beforeUnload) rfl)
    rw [heq]
    split
    · exact hasked
    · exact hasked.trans (emit_silent _ rfl)

/-- A deadline stores or unloads. -/
theorem tick_silent (cfg : Configuration) (o : Ambient) (w : World Y) :
    Silent w (w.tick cfg o).1 := by
  unfold tick
  split
  · exact (w.runStore_silent _).trans (maybeUnload_silent cfg o _)
  · exact w.spawnStore_silent

end World

/-! ## Who stays connected -/

/-- A handle without the client ids it has claimed: what never changes while
it is in the map. -/
def ConnHandle.core (conn : ConnHandle) : ConnHandle := { conn with clientIds := [] }

/-- Nobody joins, and a handle changes in its client ids at most. -/
def Shrinks (w w' : World Y) : Prop :=
  ∀ id conn', w'.connections.get? id = some conn' →
    ∃ conn, w.connections.get? id = some conn ∧ conn.core = conn'.core

/-- Who is left after both was left after each. -/
theorem Shrinks.trans {w₁ w₂ w₃ : World Y} (h₁ : Shrinks w₁ w₂) (h₂ : Shrinks w₂ w₃) :
    Shrinks w₁ w₃ := by
  intro id conn' hconn'
  obtain ⟨mid, hmid, hcore₂⟩ := h₂ id conn' hconn'
  obtain ⟨conn, hconn, hcore₁⟩ := h₁ id mid hmid
  exact ⟨conn, hconn, hcore₁.trans hcore₂⟩

/-- An untouched map shrinks. -/
theorem Shrinks.of_eq {w w' : World Y} (h : w'.connections = w.connections) : Shrinks w w' :=
  fun _ conn hconn => ⟨conn, by rw [← h, hconn], rfl⟩

/-- Some have left, the others are as they were. -/
theorem Shrinks.of_ite {w w' : World Y} {p : Nat → Prop} [DecidablePred p]
    (h : ∀ id, w'.connections.get? id = if p id then none else w.connections.get? id) :
    Shrinks w w' := by
  intro id conn hconn
  rw [h] at hconn
  split at hconn
  · cases hconn
  · exact ⟨conn, hconn, rfl⟩

/-- Who is not connected does not come back. -/
theorem Shrinks.none {w w' : World Y} (h : Shrinks w w') {id : Nat}
    (hid : w.connections.get? id = none) : w'.connections.get? id = none := by
  cases hconn : w'.connections.get? id with
  | none => rfl
  | some conn' =>
    obtain ⟨conn, hsome, _⟩ := h id conn' hconn
    rw [hid] at hsome
    cases hsome

/-! ## What evicts whom it refuses -/

/-- Whoever had a frame refused is gone, and nobody has joined. -/
structure Evicts (w w' : World Y) : Prop where
  trace : ∃ k, w'.trace = w.trace ++ k ∧
    ∀ id, Refused id k → w'.connections.get? id = none
  shrinks : Shrinks w w'

/-- Evictions compose, since whoever is gone after the first stays gone in the second. -/
theorem Evicts.trans {w₁ w₂ w₃ : World Y} (h₁ : Evicts w₁ w₂) (h₂ : Evicts w₂ w₃) :
    Evicts w₁ w₃ := by
  obtain ⟨k₁, htrace₁, hk₁⟩ := h₁.trace
  obtain ⟨k₂, htrace₂, hk₂⟩ := h₂.trace
  refine ⟨⟨k₁ ++ k₂, by rw [htrace₂, htrace₁, List.append_assoc], ?_⟩,
    h₁.shrinks.trans h₂.shrinks⟩
  intro id h
  rcases refused_append.mp h with h | h
  · exact h₂.shrinks.none (hk₁ id h)
  · exact hk₂ id h

/-- Who sends nothing refuses nobody. -/
theorem Silent.evicts {w w' : World Y} (h : Silent w w') : Evicts w w' := by
  obtain ⟨k, htrace, hk⟩ := h.trace
  exact ⟨⟨k, htrace, fun id href => absurd href (not_refused hk)⟩, Shrinks.of_eq h.connections⟩

/-- Doing nothing evicts nobody. -/
theorem Evicts.refl (w : World Y) : Evicts w w := (Silent.refl w).evicts

/-- Changes beside the trace and the map. -/
theorem Evicts.of_eq {w w' : World Y} (htrace : w'.trace = w.trace)
    (hconns : w'.connections = w.connections) : Evicts w w' :=
  ⟨⟨[], by rw [htrace, List.append_nil], fun _ h => absurd h (not_refused nofun)⟩,
    Shrinks.of_eq hconns⟩

namespace World

/-- A refused close is no refused frame. -/
theorem sendClose_evicts (w : World Y) (conn : ConnHandle) (event : CloseEvent) :
    Evicts w (w.sendClose conn event) := by
  refine ⟨⟨_, sendClose_trace w conn event, fun id h => ?_⟩,
    Shrinks.of_eq (sendClose_connections w conn event)⟩
  exact absurd h (not_refused fun e he => by rw [List.mem_singleton.mp he]; rfl)

/-- Taking a handle out of the map. -/
theorem detach_evicts (w : World Y) (id : Nat) (conn : ConnHandle) :
    Evicts w (w.detach id conn) := by
  refine ⟨⟨[], (List.append_nil _).symm, fun _ h => absurd h (not_refused nofun)⟩, ?_⟩
  exact Shrinks.of_ite (p := (· = id)) fun j => Keyed.get?_erase _ _ _

/-- A broadcast evicts exactly those whose queue it found full. -/
theorem broadcastWith_evicts (w : World Y) (build : String → Bytes) :
    Evicts w (w.broadcastWith build) := by
  obtain ⟨rs, k, hfst, htrace, hclose, hconns⟩ := w.broadcastWith_spec build
  refine ⟨⟨_, htrace, ?_⟩, Shrinks.of_ite hconns⟩
  intro id h
  rcases refused_append.mp h with ⟨q, bytes, hmem⟩ | h
  · obtain ⟨r, hr, heq⟩ := List.mem_map.mp hmem
    injection heq with hid _ _ hfull
    have hlagging : id ∈ lagging rs :=
      List.mem_map.mpr ⟨r, List.mem_filter.mpr ⟨hr, by simpa using hfull⟩, hid⟩
    rw [hconns, if_pos hlagging]
  · refine absurd h (not_refused fun e he => ?_)
    have hclosed := hclose e he
    cases e <;> first | rfl | cases hclosed

/-- A removal and the withdrawal of presence it broadcasts. -/
theorem removeConnection_evicts (w : World Y) (connId : Nat) :
    Evicts w (w.removeConnection connId) := by
  unfold removeConnection
  split
  next => exact Evicts.refl w
  next handle _ =>
    refine Evicts.trans ?_ (emit_silent _ rfl).evicts
    have hdetach := w.detach_evicts connId handle
    split
    · exact hdetach
    · split
      · exact hdetach.trans (broadcastWith_evicts _ _)
      · exact hdetach

/-- A rejection queues a close and leaves the connection in the map. -/
theorem rejectMessage_evicts (w : World Y) (connId : Nat) (e : HookError) :
    Evicts w (w.rejectMessage connId e) := by
  unfold rejectMessage
  split
  · exact w.sendClose_evicts _ _
  · exact Evicts.refl w

/-- Asking the hooks, and rejecting where one of them objects. -/
theorem beforeHandleMessage_evicts (o : Ambient) (w : World Y) (connId : Nat) (update : Bytes)
    (origin : Origin) : Evicts w (w.beforeHandleMessage o connId update origin).1 := by
  unfold beforeHandleMessage
  dsimp only
  split
  · exact (emit_silent w rfl).evicts
  · exact (emit_silent w rfl).evicts.trans (rejectMessage_evicts _ _ _)

/-- A presence change goes out as a broadcast. -/
theorem relayAwareness_evicts (w : World Y) (changed : List Nat) (origin : Origin) :
    Evicts w (w.relayAwareness changed origin) := by
  unfold relayAwareness
  split
  · exact Evicts.refl w
  · exact (w.broadcastWith_evicts _).trans (emit_silent _ rfl).evicts

/-- Claiming client ids keeps everyone's place. -/
theorem modify_evicts (w : World Y) (connId : Nat) (changed : List Nat) :
    Evicts w { w with connections :=
      w.connections.modify connId (claimClients changed) (claimClients_connId changed) } := by
  refine ⟨⟨[], (List.append_nil _).symm, fun _ h => absurd h (not_refused nofun)⟩, ?_⟩
  intro id conn' hconn'
  rw [Keyed.get?_modify] at hconn'
  split at hconn'
  · obtain ⟨conn, hconn, rfl⟩ := Option.map_eq_some_iff.mp hconn'
    exact ⟨conn, hconn, rfl⟩
  · exact ⟨conn', hconn', rfl⟩

/-- A presence frame is applied, claimed for its sender and relayed. -/
theorem handleAwareness_evicts (w : World Y) (frame : IncomingFrame) (origin : Origin) :
    Evicts w (w.handleAwareness frame origin) := by
  unfold handleAwareness
  split
  · exact Evicts.refl w
  · split
    · exact Evicts.refl w
    · dsimp only
      split
      next update _ _ =>
        have happlied : Evicts w { w with awareness := (Y.applyAwareness w.awareness update).1 } :=
          Evicts.of_eq rfl rfl
        exact happlied
      next update _ _ =>
        refine Evicts.trans ?_ (relayAwareness_evicts _ _ _)
        have happlied : Evicts w { w with awareness := (Y.applyAwareness w.awareness update).1 } :=
          Evicts.of_eq rfl rfl
        split
        · exact happlied.trans (modify_evicts _ _ _)
        · exact happlied

/-- A stateless message reaches the hooks and nobody else. -/
theorem handleStateless_evicts (w : World Y) (conn : ConnHandle) (frame : IncomingFrame) :
    Evicts w (w.handleStateless conn frame) := by
  unfold handleStateless
  split
  · exact Evicts.refl w
  · exact (emit_silent w rfl).evicts

/-- A connection told to close is removed with the close on its queue. -/
theorem closeConnection_evicts (w : World Y) (connId : Nat) (event : CloseEvent) :
    Evicts w (w.closeConnection connId event) := by
  unfold closeConnection
  refine Evicts.trans ?_ (removeConnection_evicts _ _)
  split
  · exact w.sendClose_evicts _ _
  · exact Evicts.refl w

/-- The pending broadcast evicts whom it finds lagging. -/
theorem flushBroadcast_evicts (w : World Y) : Evicts w w.flushBroadcast := by
  unfold flushBroadcast
  split
  · exact Evicts.refl w
  · have hreset : Evicts w ({ w with broadcastPending := false, broadcastBase := none } : World Y) :=
      Evicts.of_eq rfl rfl
    dsimp only
    split
    · exact hreset
    · split
      · exact hreset
      · exact hreset.trans (broadcastWith_evicts _ _)

/-- Frames from other nodes are answered through the hooks, never to a client. -/
theorem handleExternalFrame_evicts (o : Ambient) (w : World Y) (data : Bytes) (reply : Bool) :
    Evicts w (w.handleExternalFrame o data reply) := by
  have hsync : ∀ frame : IncomingFrame, Evicts w (w.handleExternalSync o frame .redis reply) := by
    intro frame
    unfold handleExternalSync
    split
    · exact Evicts.refl w
    · split
      · exact (emit_silent w rfl).evicts
      · exact Evicts.refl w
    · exact (w.applyAndBroadcast_silent o _ _).evicts
    · exact (w.applyAndBroadcast_silent o _ _).evicts
  unfold handleExternalFrame
  split
  · exact Evicts.refl w
  · dsimp only
    split
    · exact hsync _
    · exact hsync _
    · exact w.handleAwareness_evicts _ _
    · split
      · split
        · exact (emit_silent w rfl).evicts
        · exact Evicts.refl w
      · exact Evicts.refl w
    · split
      · exact w.broadcastWith_evicts _
      · exact Evicts.refl w
    · exact Evicts.refl w

/-! ## Frames sent straight to one connection -/

/-- A sync status frame. -/
def statusFrame (Y : Yrs) (address : String) (saved : Bool) : Bytes :=
  ((OutgoingMessage.new Y address).syncStatus Y saved).intoBytes

/-- A frame with the whole presence table. -/
def presenceFrame (Y : Yrs) (address : String) (update : Y.AwarenessUpdate) : Bytes :=
  ((OutgoingMessage.new Y address).awarenessUpdate Y (Y.encodeAwareness update)).intoBytes

/-- What a sync message has sent to its sender: the two answers to a request,
or the status of an update. -/
def syncAnswers (o : Ambient) (w : World Y) (conn : ConnHandle) (frame : IncomingFrame) :
    List Bytes :=
  match Y.decodeSync frame.decoder with
  | none => []
  | some (.syncStep1 clientSv) =>
    [syncFrame Y conn.messageAddress (.syncStep2 (Y.encodeDiff w.doc clientSv)),
      syncFrame Y conn.messageAddress (.syncStep1 (Y.stateVector w.doc))]
  | some (.syncStep2 _) | some (.update _) =>
    if conn.readOnly then [statusFrame Y conn.messageAddress false]
    else if (firstError o.beforeHandleMessage).isNone then
      [statusFrame Y conn.messageAddress true]
    else []

/-- What a client's frame has sent straight back to it. -/
def frameSends (o : Ambient) (w : World Y) (connId : Nat) (data : Bytes) :
    Option (ConnHandle × List Bytes) :=
  match w.connections.get? connId with
  | none => none
  | some conn =>
    match IncomingFrame.parse Y data with
    | none => none
    | some frame =>
      match frame.messageType with
      | .sync | .syncReply => some (conn, w.syncAnswers o conn frame)
      | .queryAwareness =>
        (Y.awarenessUpdate w.awareness).map fun update =>
          (conn, [presenceFrame Y conn.messageAddress update])
      | _ => none

/-- What a command sends straight to one connection, and to whom. -/
def directSends (o : Ambient) (w : World Y) : DocCommand → Option (ConnHandle × List Bytes)
  | .addConnection handle _ =>
    if Y.hasStates w.awareness then
      (Y.awarenessUpdate w.awareness).map fun update =>
        (handle, [presenceFrame Y handle.messageAddress update])
    else none
  | .clientFrame connId data => w.frameSends o connId data
  | _ => none

/-- `send_frame` once for each frame, the report dropped. -/
def sendAll (conn : ConnHandle) : World Y → List Bytes → World Y
  | w, [] => w
  | w, frame :: frames => sendAll conn (w.sendFrame conn frame).1 frames

end World

/-- The queue has a place for each of the frames, or no writer any more, when
its turn comes. -/
def queueTakes (q : Nat) : Queues → List (List QueueAct) → List Bytes → Bool
  | _, _, [] => true
  | qs, sched, frame :: frames =>
    let qs := runQueueActs qs (sched.headD [])
    !(qs q).isFull && queueTakes q (qs.set q ((qs q).trySend (.frame frame)).1) sched.tail frames

namespace World

/-- Time passes for the queues before a send ... -/
theorem poll_queues (w : World Y) : w.poll.queues = runQueueActs w.queues (w.sched.headD []) := by
  unfold poll
  split
  next h => rw [h]; rfl
  next acts rest h => rw [h]; rfl

/-- ... by one entry of the schedule. -/
theorem poll_sched (w : World Y) : w.poll.sched = w.sched.tail := by
  unfold poll
  split
  next h => rw [h]; rfl
  next acts rest h => rw [h]; rfl

/-- A send touches the queue of its connection only ... -/
theorem sendFrame_queues (w : World Y) (conn : ConnHandle) (frame : Bytes) :
    (w.sendFrame conn frame).1.queues =
      w.poll.queues.set conn.outbound ((w.poll.queues conn.outbound).trySend (.frame frame)).1 := rfl

/-- ... and takes one entry of the schedule. -/
theorem sendFrame_sched (w : World Y) (conn : ConnHandle) (frame : Bytes) :
    (w.sendFrame conn frame).1.sched = w.sched.tail := w.poll_sched

/-- The report is that of the queue as the send finds it. -/
theorem trySend_snd (w : World Y) (q : Nat) (m : OutMsg) :
    (w.trySend q m).2 = ((w.poll.queues q).trySend m).2 := rfl

/-- One frame is refused to its receiver alone. -/
theorem refused_singleton {connId id q : Nat} {bytes : Bytes} {res : SendResult} :
    Refused (Y := Y) connId [.frame id q bytes res] ↔ connId = id ∧ res = .full := by
  unfold Refused
  constructor
  · rintro ⟨_, _, h⟩
    cases List.mem_singleton.mp h
    exact ⟨rfl, rfl⟩
  · rintro ⟨rfl, rfl⟩
    exact ⟨q, bytes, List.mem_singleton.mpr rfl⟩

/-- The frames are refused to nobody else, and to the receiver exactly when
the queue does not take them all. -/
theorem sendAll_spec (conn : ConnHandle) (frames : List Bytes) (w : World Y) :
    ∃ k, (sendAll conn w frames).trace = w.trace ++ k ∧
      (∀ id, Refused id k → id = conn.connId) ∧
      (Refused conn.connId k ↔ queueTakes conn.outbound w.queues w.sched frames = false) ∧
      (sendAll conn w frames).connections = w.connections := by
  induction frames generalizing w with
  | nil =>
    refine ⟨[], (List.append_nil _).symm, fun _ h => absurd h (not_refused nofun), ?_, rfl⟩
    exact ⟨fun h => absurd h (not_refused nofun), nofun⟩
  | cons frame frames ih =>
    obtain ⟨k, htrace, honly, hiff, hconns⟩ := ih (w.sendFrame conn frame).1
    refine ⟨.frame conn.connId conn.outbound frame (w.trySend conn.outbound (.frame frame)).2 :: k,
      ?_, ?_, ?_, ?_⟩
    · rw [sendAll, htrace, sendFrame_trace, List.append_assoc]
      rfl
    · intro id h
      rcases refused_cons.mp h with h | h
      · exact (refused_singleton.mp h).1
      · exact honly id h
    · rw [sendFrame_queues, sendFrame_sched] at hiff
      have hfull := Channel.trySend_full_iff (w.poll.queues conn.outbound) (.frame frame)
      rw [queueTakes, ← poll_queues]
      rw [Bool.and_eq_false_iff, Bool.not_eq_false', ← hiff, ← hfull, ← trySend_snd]
      constructor
      · intro h
        rcases refused_cons.mp h with h | h
        · exact Or.inl (refused_singleton.mp h).2
        · exact Or.inr h
      · rintro (h | h)
        · exact refused_cons.mpr (Or.inl (refused_singleton.mpr ⟨rfl, h⟩))
        · exact refused_cons.mpr (Or.inr h)
    · rw [sendAll, hconns, sendFrame_connections]

/-- The frames go to the connection, nothing else is sent, and the connection
is in the map afterwards. -/
structure Answers (conn : ConnHandle) (frames : List Bytes) (w w' : World Y) : Prop where
  trace : ∃ (v : World Y) (k : List (Event Y)), Silent w v ∧
    w'.trace = (sendAll conn v frames).trace ++ k ∧ ∀ e ∈ k, e.isFrame = false
  registered : ∃ c, w'.connections.get? conn.connId = some c

/-- An answer is refused to its receiver, when the queue does not take it, and
to nobody else. -/
theorem Answers.refused {conn : ConnHandle} {frames : List Bytes} {w w' : World Y}
    (h : Answers conn frames w w') :
    ∃ k, w'.trace = w.trace ++ k ∧ (∀ id, Refused id k → id = conn.connId) ∧
      (Refused conn.connId k ↔ queueTakes conn.outbound w.queues w.sched frames = false) := by
  obtain ⟨v, k, hsilent, htrace, hk⟩ := h.trace
  obtain ⟨k₀, hbefore, hk₀⟩ := hsilent.trace
  obtain ⟨k₁, hsent, honly, hiff, _⟩ := sendAll_spec conn frames v
  have hmid : ∀ id, Refused id (k₀ ++ (k₁ ++ k)) ↔ Refused id k₁ := by
    intro id
    rw [refused_append, refused_append]
    constructor
    · rintro (h | h | h)
      · exact absurd h (not_refused hk₀)
      · exact h
      · exact absurd h (not_refused hk)
    · exact fun h => Or.inr (Or.inl h)
  refine ⟨k₀ ++ (k₁ ++ k), ?_, fun id h => honly id ((hmid id).mp h), ?_⟩
  · rw [htrace, hsent, hbefore, List.append_assoc, List.append_assoc]
  · rw [hmid, hiff, hsilent.queues, hsilent.sched]

/-- Frames sent after something silent. -/
theorem answers_sendAll {w v : World Y} {conn : ConnHandle} (frames : List Bytes)
    (hsilent : Silent w v) (hconn : w.connections.get? conn.connId = some conn) :
    Answers conn frames w (sendAll conn v frames) := by
  obtain ⟨_, _, _, _, hconns⟩ := sendAll_spec conn frames v
  refine ⟨⟨v, [], hsilent, (List.append_nil _).symm, nofun⟩, conn, ?_⟩
  rw [hconns, hsilent.connections, hconn]

/-- A rejected update is answered with a close at most. -/
theorem rejectMessage_answers {w v : World Y} {conn : ConnHandle} (e : HookError)
    (hsilent : Silent w v) (hconn : w.connections.get? conn.connId = some conn) :
    Answers conn [] w (v.rejectMessage conn.connId e) := by
  have hstill : v.connections.get? conn.connId = some conn := by
    rw [hsilent.connections, hconn]
  have heq : v.rejectMessage conn.connId e = v.sendClose conn (e.close.getD resetConnection) := by
    rw [rejectMessage, hstill]
  rw [heq]
  refine ⟨⟨v, _, hsilent, sendClose_trace v conn _, ?_⟩, conn, ?_⟩
  · intro e he
    rw [List.mem_singleton.mp he]
    rfl
  · rw [sendClose_connections, hstill]

/-- A sync status is one frame to a connection that is there. -/
theorem sendSyncStatus_eq {v : World Y} {conn : ConnHandle} (address : String) (saved : Bool)
    (hconn : v.connections.get? conn.connId = some conn) :
    v.sendSyncStatus conn.connId address saved = sendAll conn v [statusFrame Y address saved] := by
  unfold sendSyncStatus
  rw [hconn]
  rfl

/-- A sync message sends its sender the answers listed for it. Whether the update is
applied in between changes nothing for the queues. -/
theorem handleSync_answers {w : World Y} {conn : ConnHandle} (o : Ambient) (origin : Origin)
    (frame : IncomingFrame) (hconn : w.connections.get? conn.connId = some conn) :
    Answers conn (w.syncAnswers o conn frame) w
      (w.handleSync o conn conn.messageAddress origin frame) := by
  -- an update and a second sync step are handled alike
  have hupdate : ∀ update : Bytes,
      Answers conn
        (if conn.readOnly then [statusFrame Y conn.messageAddress false]
          else if (firstError o.beforeHandleMessage).isNone then
            [statusFrame Y conn.messageAddress true]
          else []) w
        (if conn.readOnly then w.sendSyncStatus conn.connId conn.messageAddress false
          else
            let checked := w.beforeHandleMessage o conn.connId update origin
            if checked.2 then
              (checked.1.applyAndBroadcast o update origin).sendSyncStatus conn.connId
                conn.messageAddress true
            else checked.1) := by
    intro update
    split
    · rw [sendSyncStatus_eq _ _ hconn]
      exact answers_sendAll _ (Silent.refl w) hconn
    · have hasked : Silent w
          (w.emit (.beforeHandleMessage update origin w.connections.size)) := emit_silent w rfl
      unfold beforeHandleMessage
      cases hhook : firstError o.beforeHandleMessage with
      | none =>
        have happlied := hasked.trans (applyAndBroadcast_silent o _ update origin)
        dsimp only
        rw [if_pos Option.isNone_none, if_pos rfl,
          sendSyncStatus_eq _ _ (by rw [happlied.connections, hconn])]
        exact answers_sendAll _ happlied hconn
      | some e =>
        dsimp only
        rw [if_neg (by simp), if_neg (by simp)]
        exact rejectMessage_answers e hasked hconn
  unfold handleSync syncAnswers
  cases Y.decodeSync frame.decoder with
  | none => exact answers_sendAll [] (Silent.refl w) hconn
  | some msg =>
    cases msg with
    | syncStep1 clientSv => exact answers_sendAll [_, _] (Silent.refl w) hconn
    | syncStep2 update => exact hupdate update
    | update update => exact hupdate update

/-- A join puts one handle in the map. -/
theorem addConnection_get? (w : World Y) (order : Reorder ConnHandle) (handle : ConnHandle)
    (id : Nat) : (w.addConnection order handle).connections.get? id
      = if id = handle.connId then some handle else w.connections.get? id := by
  unfold addConnection
  dsimp only
  split
  · split
    · exact (Keyed.get?_insert ..).trans (by rw [sendFrame_connections])
    · exact Keyed.get?_insert ..
  · exact Keyed.get?_insert ..

/-- A join into a document with presence greets the client with it. -/
theorem addConnection_answers (w : World Y) (order : Reorder ConnHandle) (handle : ConnHandle)
    (ack : Nat) {update : Y.AwarenessUpdate} (hstates : Y.hasStates w.awareness = true)
    (hupdate : Y.awarenessUpdate w.awareness = some update) :
    Answers handle [presenceFrame Y handle.messageAddress update] w
      ((w.addConnection order handle).emit (.ack ack)) := by
  have hget : ((w.addConnection order handle).emit (.ack ack)).connections.get? handle.connId
      = some handle := (addConnection_get? w order handle handle.connId).trans (if_pos rfl)
  refine ⟨⟨w, [.added handle, .ack ack], Silent.refl w, ?_, ?_⟩, handle, hget⟩
  · unfold addConnection
    rw [if_pos hstates, hupdate]
    exact List.append_assoc _ _ _
  · intro e he
    rcases List.mem_pair.mp he with rfl | rfl <;> rfl

/-- Nobody who joins without being greeted is refused anything. -/
theorem addConnection_silent (w : World Y) (order : Reorder ConnHandle) (handle : ConnHandle)
    (ack : Nat) (hnone : Y.hasStates w.awareness = true → Y.awarenessUpdate w.awareness = none) :
    ((w.addConnection order handle).emit (.ack ack)).trace
      = w.trace ++ [.added handle, .ack ack] := by
  unfold addConnection
  split
  next hstates =>
    rw [hnone hstates]
    exact List.append_assoc _ _ _
  next => exact List.append_assoc _ _ _

/-- A frame either has answers for its sender, or it evicts whom it refuses. -/
theorem handleClientFrame_cases (o : Ambient) (w : World Y) (connId : Nat) (data : Bytes) :
    match w.frameSends o connId data with
    | some (conn, frames) => Answers conn frames w (w.handleClientFrame o connId data)
    | none => Evicts w (w.handleClientFrame o connId data) := by
  unfold frameSends handleClientFrame
  cases hconn : w.connections.get? connId with
  | none => exact Evicts.refl w
  | some conn =>
    obtain rfl : conn.connId = connId := Keyed.get?_key hconn
    cases hparse : IncomingFrame.parse Y data with
    | none => exact Evicts.refl w
    | some frame =>
      dsimp only
      cases htype : frame.messageType with
      | sync => exact handleSync_answers o _ frame hconn
      | syncReply => exact handleSync_answers o _ frame hconn
      | awareness => exact w.handleAwareness_evicts _ _
      | queryAwareness =>
        dsimp only
        unfold replyQueryAwareness
        cases hupdate : Y.awarenessUpdate w.awareness with
        | none => exact Evicts.refl w
        | some update =>
          rw [hconn]
          exact answers_sendAll [_] (Silent.refl w) hconn
      | stateless => exact w.handleStateless_evicts _ _
      | close => exact w.closeConnection_evicts _ _
      | broadcastStateless => exact w.closeConnection_evicts _ _
      | auth | syncStatus | ping | pong => exact Evicts.refl w

/-- **A command**, likewise. The greeting of a join is the one frame sent to a
connection that is not in the map yet. -/
theorem handleCommand_cases (cfg : Configuration) (o : Ambient) (w : World Y) (cmd : DocCommand) :
    match w.directSends o cmd with
    | some (conn, frames) => Answers conn frames w (w.handleCommand cfg o cmd).1
    | none => ∃ k, (w.handleCommand cfg o cmd).1.trace = w.trace ++ k ∧
        ∀ id, Refused id k → (w.handleCommand cfg o cmd).1.connections.get? id = none := by
  cases cmd with
  | addConnection handle ack =>
    have hsilent : (Y.hasStates w.awareness = true → Y.awarenessUpdate w.awareness = none) →
        ∃ k, ((w.addConnection o.order handle).emit (.ack ack)).trace = w.trace ++ k ∧
          ∀ id, Refused id k →
            ((w.addConnection o.order handle).emit (.ack ack)).connections.get? id = none := by
      intro hnone
      refine ⟨_, addConnection_silent w _ _ _ hnone, fun id h => absurd h (not_refused ?_)⟩
      intro e he
      rcases List.mem_pair.mp he with rfl | rfl <;> rfl
    unfold directSends handleCommand
    by_cases hstates : Y.hasStates w.awareness = true
    · cases hupdate : Y.awarenessUpdate w.awareness with
      | none =>
        dsimp only
        rw [if_pos hstates]
        exact hsilent fun _ => hupdate
      | some update =>
        dsimp only
        rw [if_pos hstates]
        exact addConnection_answers w _ _ _ hstates hupdate
    · dsimp only
      rw [if_neg hstates]
      exact hsilent fun h => absurd h hstates
  | clientFrame connId data =>
    have hcases := handleClientFrame_cases o w connId data
    unfold directSends handleCommand
    dsimp only
    split
    next heq => rwa [heq] at hcases
    next heq =>
      rw [heq] at hcases
      exact hcases.trace
  | removeConnection connId =>
    exact ((w.removeConnection_evicts connId).trans (maybeUnload_silent cfg o _).evicts).trace
  | externalFrame data reply => exact (w.handleExternalFrame_evicts o data reply).trace
  | directApply update ack =>
    exact ((w.applyAndBroadcast_silent o update .local).trans
      (emit_silent _ (e := .ack ack) rfl)).evicts.trace

/-- A status leaves the map alone. -/
theorem sendSyncStatus_connections (w : World Y) (connId : Nat) (address : String)
    (saved : Bool) : (w.sendSyncStatus connId address saved).connections = w.connections := by
  unfold sendSyncStatus
  split
  · exact sendFrame_connections _ _ _
  · rfl

/-- Nobody joins through a sync message ... -/
theorem handleSync_shrinks (o : Ambient) (w : World Y) (conn : ConnHandle) (address : String)
    (origin : Origin) (frame : IncomingFrame) :
    Shrinks w (w.handleSync o conn address origin frame) := by
  have hupdate : ∀ update : Bytes, Shrinks w
      (if conn.readOnly then w.sendSyncStatus conn.connId address false
        else
          let checked := w.beforeHandleMessage o conn.connId update origin
          if checked.2 then
            (checked.1.applyAndBroadcast o update origin).sendSyncStatus conn.connId address true
          else checked.1) := by
    intro update
    have hchecked := (w.beforeHandleMessage_evicts o conn.connId update origin).shrinks
    split
    · exact Shrinks.of_eq (sendSyncStatus_connections _ _ _ _)
    · dsimp only
      split
      · refine hchecked.trans (Shrinks.of_eq ?_)
        rw [sendSyncStatus_connections, (applyAndBroadcast_silent o _ _ _).connections]
      · exact hchecked
  unfold handleSync
  split
  · exact Shrinks.of_eq rfl
  · exact Shrinks.of_eq (by rw [sendFrame_connections, sendFrame_connections])
  · exact hupdate _
  · exact hupdate _

/-- ... or through any other frame. -/
theorem handleClientFrame_shrinks (o : Ambient) (w : World Y) (connId : Nat) (data : Bytes) :
    Shrinks w (w.handleClientFrame o connId data) := by
  have hrefl : Shrinks w w := Shrinks.of_eq rfl
  unfold handleClientFrame
  split
  · exact hrefl
  · split
    · exact hrefl
    · dsimp only
      split
      · exact w.handleSync_shrinks _ _ _ _ _
      · exact w.handleSync_shrinks _ _ _ _ _
      · exact (w.handleAwareness_evicts _ _).shrinks
      · unfold replyQueryAwareness
        split
        · exact hrefl
        · split
          · exact hrefl
          · exact Shrinks.of_eq (sendFrame_connections _ _ _)
      · exact (w.handleStateless_evicts _ _).shrinks
      · exact (w.closeConnection_evicts _ _).shrinks
      · exact hrefl
      · exact (w.closeConnection_evicts _ _).shrinks
      all_goals exact hrefl

/-- Nobody joins but by `AddConnection`. -/
theorem handleCommand_shrinks {cfg : Configuration} {o : Ambient} {w : World Y} {cmd : DocCommand}
    (hcmd : ∀ handle ack, cmd ≠ .addConnection handle ack) :
    Shrinks w (w.handleCommand cfg o cmd).1 := by
  cases cmd with
  | addConnection handle ack => exact absurd rfl (hcmd handle ack)
  | clientFrame connId data => exact w.handleClientFrame_shrinks o connId data
  | removeConnection connId =>
    exact ((w.removeConnection_evicts connId).trans (maybeUnload_silent cfg o _).evicts).shrinks
  | externalFrame data reply => exact (w.handleExternalFrame_evicts o data reply).shrinks
  | directApply update ack =>
    exact ((w.applyAndBroadcast_silent o update .local).trans
      (emit_silent _ (e := .ack ack) rfl)).evicts.shrinks

end World

/-! ## Steps and runs -/

/-- Whoever had a frame refused in the step is gone after it. -/
def Actor.NoneMissed (a b : Actor Y) : Prop :=
  ∀ id, Refused id (a.sent b) → ¬ b.Registered id

/-- No frame to a connection in the map was ever dropped for a full queue. -/
def Actor.NothingDropped (a : Actor Y) : Prop :=
  ∀ id, a.Registered id → ¬ Refused id a.world.trace

/-- What the command sends straight to one connection, its queue takes. -/
def Actor.DirectRoom (a : Actor Y) : Label → Prop
  | .command cmd o => ∀ conn frames,
    (a.world.withSched o.sched).directSends o cmd = some (conn, frames) →
      queueTakes conn.outbound a.world.queues o.sched frames = true
  | _ => True

/-- A joining connection's id is not that of a connection a frame was refused
to: ids come from a counter. -/
def Actor.FreshJoin (a : Actor Y) (l : Label) : Prop :=
  ∀ handle ack o, l = .command (.addConnection handle ack) o →
    ¬ Refused handle.connId a.world.trace

/-- Not registered, as a lookup. -/
theorem Actor.not_registered {id : Nat} {a : Actor Y} :
    ¬ a.Registered id ↔ a.world.connections.get? id = none := by
  unfold Actor.Registered
  rw [← Option.isSome_iff_exists, Option.not_isSome_iff_eq_none]

/-- Drawing a schedule for the queues evicts nobody. -/
theorem withSched_evicts (w : World Y) (sched : List (List QueueAct)) :
    Evicts w (w.withSched sched) := Evicts.of_eq rfl rfl

/-- Between commands the actor leaves nobody behind. -/
theorem Actor.step_evicts {cfg : Configuration} {a b : Actor Y} {l : Label}
    (hstep : a.step cfg l = some b) (hl : ∀ cmd o, l ≠ .command cmd o) :
    Evicts a.world b.world := by
  cases Actor.step_cases hstep with
  | command cmd o n hphase => exact absurd rfl (hl cmd o)
  | flush sched n hphase => exact (withSched_evicts _ sched).trans (World.flushBroadcast_evicts _)
  | storeResult o ok rest hphase hresults =>
    exact (withSched_evicts _ o.sched).trans
      ((World.takeResult_silent o _ ok rest).trans (World.maybeUnload_silent cfg o _)).evicts
  | deadline o hphase hdirty hstoring =>
    exact (withSched_evicts _ o.sched).trans (World.tick_silent cfg o _).evicts
  | mailboxClosed => exact Evicts.refl _
  | storeTask i results => exact (World.finishStore_silent _ _ _).evicts
  | queues acts =>
    have hacts : Evicts a.world { a.world with queues := runQueueActs a.world.queues acts } :=
      Evicts.of_eq rfl rfl
    exact hacts

/-- A command leaves nobody behind exactly when the queue takes what it sends
straight to a connection. -/
theorem Actor.command_noneMissed (cfg : Configuration) (a : Actor Y) (cmd : DocCommand)
    (o : Ambient) (p : Phase) :
    Actor.NoneMissed a ⟨((a.world.withSched o.sched).handleCommand cfg o cmd).1, p⟩ ↔
      a.DirectRoom (.command cmd o) := by
  have hcases := (a.world.withSched o.sched).handleCommand_cases cfg o cmd
  unfold Actor.NoneMissed Actor.DirectRoom
  cases hsends : (a.world.withSched o.sched).directSends o cmd with
  | none =>
    rw [hsends] at hcases
    obtain ⟨k, htrace, hgone⟩ := hcases
    rw [Actor.sent_eq htrace]
    refine ⟨fun _ conn frames h => ?_, fun _ id h => Actor.not_registered.mpr (hgone id h)⟩
    rw [hsends] at h
    cases h
  | some sends =>
    obtain ⟨conn, frames⟩ := sends
    rw [hsends] at hcases
    obtain ⟨k, htrace, honly, hiff⟩ := hcases.refused
    rw [Actor.sent_eq htrace]
    constructor
    · intro hnone conn' frames' heq
      cases hsends.symm.trans heq
      by_contra hfull
      exact hnone conn.connId (hiff.mpr (Bool.not_eq_true _ ▸ hfull)) hcases.registered
    · intro hroom id href
      obtain rfl := honly id href
      have hfull := hiff.mp href
      have htakes : queueTakes conn.outbound (a.world.withSched o.sched).queues
          (a.world.withSched o.sched).sched frames = true := hroom conn frames hsends
      rw [htakes] at hfull
      cases hfull

/-- **When a step leaves nobody behind**: for every label this is the room its
straight sends find, and only a command has any. -/
theorem Actor.noneMissed_iff {cfg : Configuration} {a b : Actor Y} {l : Label}
    (hstep : a.step cfg l = some b) : Actor.NoneMissed a b ↔ a.DirectRoom l := by
  have hother : (∀ cmd o, l ≠ .command cmd o) → Actor.NoneMissed a b := by
    intro hl id href
    obtain ⟨k, htrace, hgone⟩ := (Actor.step_evicts hstep hl).trace
    rw [Actor.sent_eq htrace] at href
    exact Actor.not_registered.mpr (hgone id href)
  cases l with
  | command cmd o =>
    cases Actor.step_cases hstep with
    | command _ _ n hphase => exact Actor.command_noneMissed cfg a cmd o _
  | _ => exact ⟨fun _ => trivial, fun _ => hother nofun⟩

/-- Who is connected after a step was before, or has just joined. -/
theorem Actor.step_get? {cfg : Configuration} {a b : Actor Y} {l : Label}
    (hstep : a.step cfg l = some b) {id : Nat} {conn' : ConnHandle}
    (hconn' : b.world.connections.get? id = some conn') :
    (∃ conn, a.world.connections.get? id = some conn ∧ conn.core = conn'.core) ∨
      ∃ ack o, l = .command (.addConnection conn' ack) o ∧ id = conn'.connId := by
  by_cases hcmd : ∃ cmd o, l = .command cmd o
  · obtain ⟨cmd, o, rfl⟩ := hcmd
    cases Actor.step_cases hstep with
    | command _ _ n hphase =>
      by_cases hadd : ∃ handle ack, cmd = .addConnection handle ack
      · obtain ⟨handle, ack, rfl⟩ := hadd
        have hget := (World.addConnection_get? (a.world.withSched o.sched) o.order handle
          id).symm.trans hconn'
        split at hget
        next hid =>
          obtain rfl := Option.some.inj hget
          exact Or.inr ⟨ack, o, rfl, hid⟩
        next => exact Or.inl ⟨conn', hget, rfl⟩
      · have hshrinks : Shrinks (a.world.withSched o.sched)
            ((a.world.withSched o.sched).handleCommand cfg o cmd).1 :=
          World.handleCommand_shrinks fun handle ack h => hadd ⟨handle, ack, h⟩
        exact Or.inl (hshrinks id conn' hconn')
  · exact Or.inl ((Actor.step_evicts hstep fun cmd o h => hcmd ⟨cmd, o, h⟩).shrinks id conn' hconn')

/-- Nobody joins but by `AddConnection`. -/
theorem Actor.registered_of_step {cfg : Configuration} {a b : Actor Y} {l : Label} {id : Nat}
    (hstep : a.step cfg l = some b) (hreg : b.Registered id)
    (hjoin : ∀ handle ack o, l = .command (.addConnection handle ack) o → id ≠ handle.connId) :
    a.Registered id := by
  obtain ⟨conn', hconn'⟩ := hreg
  rcases Actor.step_get? hstep hconn' with ⟨conn, hconn, _⟩ | ⟨ack, o, hl, hid⟩
  · exact ⟨conn, hconn⟩
  · exact absurd hid (hjoin conn' ack o hl)

/-- What one step preserves. A newcomer brings no refusal with it, as its id is fresh. -/
theorem Actor.nothingDropped_step {cfg : Configuration} {a b : Actor Y} {l : Label}
    (hstep : a.step cfg l = some b) (hnone : Actor.NoneMissed a b) (hfresh : a.FreshJoin l)
    (ha : a.NothingDropped) : b.NothingDropped := by
  intro id hreg href
  rw [Actor.trace_sent (Actor.step_trace hstep)] at href
  rcases refused_append.mp href with hold | hnew
  · refine ha id (Actor.registered_of_step hstep hreg fun handle ack o hl hid => ?_) hold
    exact hfresh handle ack o hl (hid ▸ hold)
  · exact hnone id hnew hreg

/-- **Who stays misses nothing**, in a run all of whose commands find room for
what they send straight to one connection, and in no other. -/
theorem Actor.registered_misses_nothing (cfg : Configuration) (a : Actor Y) (ls : List Label) :
    (Lts.Along (Actor.step cfg) (fun a _ b => Actor.NoneMissed a b) a ls ↔
      Lts.Along (Actor.step cfg) (fun a l _ => a.DirectRoom l) a ls) ∧
    ∀ b, Actor.Run cfg a ls b → a.NothingDropped →
      Lts.Along (Actor.step cfg) (fun a l _ => a.FreshJoin l ∧ a.DirectRoom l) a ls →
      b.NothingDropped := by
  constructor
  · refine Lts.along_congr ?_ ls a
    exact fun a l b hstep => Actor.noneMissed_iff hstep
  · intro b hrun ha hcond
    refine Lts.exec_invariant_along ?_ hcond hrun ha
    intro a l b hstep hc hnothing
    exact Actor.nothingDropped_step hstep ((Actor.noneMissed_iff hstep).mpr hc.2) hc.1 hnothing

/-- A client joins ... -/
def joinFirst : Label := .command (.addConnection (OneWriter.conn 1) 0) {}

/-- ... and asks for what it is missing. -/
def askMissing : Label :=
  .command (.clientFrame 1 (World.syncFrame OneWriter.yrs "doc" (.syncStep1 (0 : Nat)))) {}

/-- A refusal found by computation. -/
theorem refused_of_any {connId : Nat} {t : List (Event Y)}
    (h : t.any (fun e => match e with
      | .frame id _ _ .full => id == connId
      | _ => false) = true) : Refused connId t := by
  obtain ⟨e, hmem, he⟩ := List.any_eq_true.mp h
  split at he
  next id q bytes =>
    obtain rfl : id = connId := by simpa using he
    exact ⟨q, bytes, hmem⟩
  next => cases he

/-- With room for both answers nothing is dropped. -/
theorem Actor.registered_misses_nothing_sync :
    (OneWriter.after {} (OneWriter.start 2) [joinFirst, askMissing]).NothingDropped := by
  refine (Actor.registered_misses_nothing {} (OneWriter.start 2) [joinFirst, askMissing]).2 _
    (OneWriter.run_after (by decide +kernel)) ?_ ?_
  · rintro id ⟨_, hnone⟩
    cases hnone
  · refine fun _ hjoin => ⟨⟨?_, ?_⟩, fun _ hsync => ⟨⟨?_, ?_⟩, trivial⟩⟩
    · rintro handle ack o _ ⟨_, _, hnone⟩
      cases hnone
    · intro conn frames hsends
      cases hsends
    · intro handle ack o heq
      cases heq
    · intro conn frames hsends
      cases hjoin
      cases hsends
      decide +kernel

/-- A queue of one frame takes the first answer and not the second; the
connection stays. -/
theorem Actor.registered_misses_answer :
    ¬ ∀ (cfg : Configuration) (ls : List Label), Lts.Along (Actor.step cfg)
      (fun a _ b => Actor.NoneMissed a b) (OneWriter.start cfg.outboundCapacity) ls := by
  intro hall
  let cfg : Configuration := { outboundCapacity := 1 }
  have hmissed : Actor.NoneMissed (OneWriter.after cfg (OneWriter.start 1) [joinFirst])
      (OneWriter.after cfg (OneWriter.after cfg (OneWriter.start 1) [joinFirst]) [askMissing]) :=
    Lts.along_last (hall cfg ([joinFirst] ++ [askMissing]))
      (OneWriter.run_after (by decide +kernel)) (OneWriter.step_after (by decide +kernel))
  refine hmissed 1 (refused_of_any (by decide +kernel)) ?_
  exact Option.isSome_iff_exists.mp (by decide +kernel)

end Hocuspocus
