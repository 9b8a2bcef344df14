import Hocuspocus.Document.Evict

/-!
# What a sync status tells

`handle_sync` answers an update with a `SyncStatus`: false on a read-only
connection, true after `apply_and_broadcast`, which logs a failure to decode or
to apply and returns as if nothing had happened. `handleClientFrame_update` is
what an update from a writable connection makes the actor do, and
`applyAndBroadcast_applied` says when that applies it; the status is sent either
way.
-/

namespace Hocuspocus

variable {Y : Yrs}

/-- The update of a sync message, as it was sent. -/
def SyncMessage.payload {StateVector : Type} : SyncMessage StateVector → Option Bytes
  | .syncStep1 _ => none
  | .syncStep2 b | .update b => some b

/-- The update a `Sync` or `SyncReply` frame carries. -/
def carriedUpdate (Y : Yrs) (data : Bytes) : Option Bytes :=
  match IncomingFrame.parse Y data with
  | none => none
  | some frame =>
    match frame.messageType with
    | .sync | .syncReply => (Y.decodeSync frame.decoder).bind SyncMessage.payload
    | _ => none

/-- The bytes decode, and `yrs` applies the update to the document. -/
def Applicable (doc : Y.Doc) (update : Bytes) : Prop :=
  ∃ u, Y.decodeUpdate update = some u ∧ (Y.applyUpdate doc u).2 = true

namespace World

/-- What `handle_sync` makes of an update from a writable connection: the hooks,
the change, the status. -/
def receiveUpdate (o : Ambient) (w : World Y) (connId : Nat) (address : String) (update : Bytes) :
    World Y :=
  let checked := w.beforeHandleMessage o connId update (.connection connId)
  if checked.2 then
    (checked.1.applyAndBroadcast o update (.connection connId)).sendSyncStatus connId address true
  else checked.1

theorem handleSync_update {w : World Y} {conn : ConnHandle} {frame : IncomingFrame}
    {update : Bytes} (o : Ambient) (address : String) (hwritable : conn.readOnly = false)
    (hupdate : (Y.decodeSync frame.decoder).bind SyncMessage.payload = some update) :
    w.handleSync o conn address (.connection conn.connId) frame
      = w.receiveUpdate o conn.connId address update := by
  obtain ⟨msg, hmsg, hpayload⟩ := Option.bind_eq_some_iff.mp hupdate
  unfold handleSync receiveUpdate
  rw [hmsg]
  cases msg with
  | syncStep1 sv => cases hpayload
  | syncStep2 update' =>
    cases hpayload
    dsimp only
    rw [hwritable, if_neg Bool.false_ne_true]
  | update update' =>
    cases hpayload
    dsimp only
    rw [hwritable, if_neg Bool.false_ne_true]

theorem handleClientFrame_update {w : World Y} {connId : Nat} {conn : ConnHandle}
    {data update : Bytes} (o : Ambient) (hconn : w.connections.get? connId = some conn)
    (hwritable : conn.readOnly = false) (hupdate : carriedUpdate Y data = some update) :
    w.handleClientFrame o connId data = w.receiveUpdate o connId conn.messageAddress update := by
  obtain rfl : conn.connId = connId := Keyed.get?_key hconn
  unfold carriedUpdate at hupdate
  unfold handleClientFrame
  rw [hconn]
  cases hparse : IncomingFrame.parse Y data with
  | none =>
    rw [hparse] at hupdate
    cases hupdate
  | some frame =>
    rw [hparse] at hupdate
    dsimp only at hupdate ⊢
    cases htype : frame.messageType with
    | sync =>
      rw [htype] at hupdate
      exact handleSync_update o conn.messageAddress hwritable hupdate
    | syncReply =>
      rw [htype] at hupdate
      exact handleSync_update o conn.messageAddress hwritable hupdate
    | awareness | auth | queryAwareness | stateless | broadcastStateless | close | syncStatus
    | ping | pong =>
      rw [htype] at hupdate
      cases hupdate

/-- An update is applied exactly if it can be. -/
theorem applyAndBroadcast_applied (o : Ambient) (w : World Y) (update : Bytes) (origin : Origin) :
    ∃ k, (w.applyAndBroadcast o update origin).trace = w.trace ++ k ∧
      ((∃ doc, .applied update origin doc ∈ k) ↔ Applicable w.doc update) := by
  unfold applyAndBroadcast
  dsimp only
  cases hdec : Y.decodeUpdate update with
  | none =>
    refine ⟨[], (List.append_nil _).symm, fun h => ?_, fun h => ?_⟩
    · obtain ⟨_, hmem⟩ := h
      cases hmem
    · obtain ⟨_, hu, _⟩ := h
      rw [hdec] at hu
      cases hu
  | some u =>
    dsimp only
    cases hok : (Y.applyUpdate w.doc u).2 with
    | false =>
      refine ⟨[], (List.append_nil _).symm, fun h => ?_, fun h => ?_⟩
      · obtain ⟨_, hmem⟩ := h
        cases hmem
      · obtain ⟨u', hu', hok'⟩ := h
        obtain rfl : u = u' := Option.some.inj (hdec.symm.trans hu')
        rw [hok] at hok'
        cases hok'
    | true =>
      have happlied : Applicable w.doc update := ⟨u, hdec, hok⟩
      rw [if_neg (by simp)]
      by_cases hempty : Y.encodeTxn w.doc u = []
      · rw [noteChange_empty _ _ _ _ hempty]
        exact ⟨[.applied update origin (Y.applyUpdate w.doc u).1], rfl, fun _ => happlied,
          fun _ => ⟨_, List.mem_singleton_self _⟩⟩
      · rw [noteChange_cons _ _ _ _ hempty]
        exact ⟨[.applied update origin (Y.applyUpdate w.doc u).1,
          .onChange (Y.encodeTxn w.doc u) origin w.connections.size], List.append_assoc ..,
          fun _ => happlied, fun _ => ⟨_, List.mem_cons_self ..⟩⟩

/-- A status is the one frame an update is answered with, if the hooks let it
pass; it is accepted if the queue has room at its turn. -/
theorem receiveUpdate_trace {w : World Y} {connId : Nat} {conn : ConnHandle} (o : Ambient)
    (update : Bytes) (hconn : w.connections.get? connId = some conn) :
    ∃ k, (w.receiveUpdate o connId conn.messageAddress update).trace = w.trace ++ k ∧
      ((∃ q, .frame connId q (statusFrame Y conn.messageAddress true) .accepted ∈ k) ↔
        firstError o.beforeHandleMessage = none ∧ (w.poll.queues conn.outbound).hasRoom = true) ∧
      ((∃ doc, .applied update (.connection connId) doc ∈ k) ↔
        firstError o.beforeHandleMessage = none ∧ Applicable w.doc update) := by
  obtain rfl : conn.connId = connId := Keyed.get?_key hconn
  unfold receiveUpdate beforeHandleMessage
  dsimp only
  generalize hasked : w.emit (.beforeHandleMessage update (.connection conn.connId)
    w.connections.size) = v
  have hbefore : Silent w v := hasked ▸ emit_silent w rfl
  have htrace : v.trace = w.trace ++
      [.beforeHandleMessage update (.connection conn.connId) w.connections.size] := hasked ▸ rfl
  have hdoc : v.doc = w.doc := hasked ▸ rfl
  cases hhook : firstError o.beforeHandleMessage with
  | some e =>
    have hreject : v.rejectMessage conn.connId e
        = v.sendClose conn (e.close.getD resetConnection) := by
      rw [rejectMessage, hbefore.connections, hconn]
    dsimp only
    rw [if_neg Bool.false_ne_true, hreject]
    refine ⟨_, by rw [sendClose_trace, htrace, List.append_assoc], ⟨fun h => ?_, fun h => ?_⟩,
      ⟨fun h => ?_, fun h => ?_⟩⟩
    · obtain ⟨_, hmem⟩ := h
      simp at hmem
    · cases h.1
    · obtain ⟨_, hmem⟩ := h
      simp at hmem
    · cases h.1
  | none =>
    have hsilent := hbefore.trans (applyAndBroadcast_silent o v update (.connection conn.connId))
    obtain ⟨k, happly, happlied⟩ := v.applyAndBroadcast_applied o update (.connection conn.connId)
    rw [hdoc] at happlied
    -- applying an update sends nothing, so the status is the only frame
    obtain ⟨k', hk', hframeless⟩ :=
      (applyAndBroadcast_silent o v update (.connection conn.connId)).trace
    obtain rfl : k = k' := List.append_cancel_left (happly.symm.trans hk')
    generalize v.applyAndBroadcast o update (.connection conn.connId) = u at hsilent happly
    have hroom : (u.trySend conn.outbound (.frame (statusFrame Y conn.messageAddress true))).2
        = .accepted ↔ (w.poll.queues conn.outbound).hasRoom = true := by
      rw [trySend_snd, Channel.trySend_accepted_iff, poll_queues, poll_queues, hsilent.queues,
        hsilent.sched]
    dsimp only
    rw [if_pos rfl, sendSyncStatus_eq _ _ (by rw [hsilent.connections, hconn]), sendAll, sendAll]
    refine ⟨_, by rw [sendFrame_trace, happly, htrace, List.append_assoc, List.append_assoc],
      ⟨fun h => ?_, fun h => ?_⟩, ⟨fun h => ?_, fun h => ?_⟩⟩
    · obtain ⟨q, hmem⟩ := h
      refine ⟨rfl, hroom.mp ?_⟩
      rcases List.mem_append.mp hmem with hmem | hmem
      · cases List.mem_singleton.mp hmem
      · rcases List.mem_append.mp hmem with hmem | hmem
        · cases hframeless _ hmem
        · injection List.mem_singleton.mp hmem with _ _ _ hres
          exact hres.symm
    · refine ⟨conn.outbound, List.mem_append_right _ (List.mem_append_right _ ?_)⟩
      rw [hroom.mpr h.2]
      exact List.mem_singleton_self _
    · obtain ⟨doc, hmem⟩ := h
      refine ⟨rfl, happlied.mp ⟨doc, ?_⟩⟩
      rcases List.mem_append.mp hmem with hmem | hmem
      · cases List.mem_singleton.mp hmem
      · rcases List.mem_append.mp hmem with hmem | hmem
        · exact hmem
        · cases List.mem_singleton.mp hmem
    · obtain ⟨doc, hmem⟩ := happlied.mpr h.2
      exact ⟨doc, List.mem_append_right _ (List.mem_append_left _ hmem)⟩

end World

/-- A status that says true has been accepted by the queue of the connection. -/
def Actor.Acknowledged (a b : Actor Y) (connId : Nat) (address : String) : Prop :=
  ∃ q, .frame connId q (World.statusFrame Y address true) .accepted ∈ a.sent b

/-- The update of the connection has been applied to the document. -/
def Actor.HasApplied (a b : Actor Y) (connId : Nat) (update : Bytes) : Prop :=
  ∃ doc, .applied update (.connection connId) doc ∈ a.sent b

/-- What an update from a writable connection is answered with, and what it does. -/
theorem Actor.clientFrame_answers {cfg : Configuration} {a b : Actor Y} {connId : Nat}
    {data : Bytes} {o : Ambient} {conn : ConnHandle} {update : Bytes}
    (hstep : a.step cfg (.command (.clientFrame connId data) o) = some b)
    (hconn : a.world.connections.get? connId = some conn) (hwritable : conn.readOnly = false)
    (hupdate : carriedUpdate Y data = some update) :
    (a.Acknowledged b connId conn.messageAddress ↔
      firstError o.beforeHandleMessage = none ∧
        ((a.world.withSched o.sched).poll.queues conn.outbound).hasRoom = true) ∧
      (a.HasApplied b connId update ↔
        firstError o.beforeHandleMessage = none ∧ Applicable a.world.doc update) := by
  have hworld : b.world = (a.world.withSched o.sched).receiveUpdate o connId conn.messageAddress
      update := by
    cases Actor.step_cases hstep with
    | command _ _ n _ => exact World.handleClientFrame_update o hconn hwritable hupdate
  obtain ⟨k, htrace, hstatus, happlied⟩ :=
    (a.world.withSched o.sched).receiveUpdate_trace o update hconn
  have hsent : a.sent b = k := Actor.sent_eq (by rw [hworld, htrace]; rfl)
  unfold Actor.Acknowledged Actor.HasApplied
  rw [hsent]
  exact ⟨hstatus, happlied⟩

/-- **What a status says**: the update it answers is in the document exactly if
the hooks turn the update down, or the queue has no room for the status, or the
update decodes and `yrs` applies it. -/
theorem Actor.status_tells {cfg : Configuration} {a b : Actor Y} {connId : Nat} {data : Bytes}
    {o : Ambient} {conn : ConnHandle} {update : Bytes}
    (hstep : a.step cfg (.command (.clientFrame connId data) o) = some b)
    (hconn : a.world.connections.get? connId = some conn) (hwritable : conn.readOnly = false)
    (hupdate : carriedUpdate Y data = some update) :
    (a.Acknowledged b connId conn.messageAddress → a.HasApplied b connId update) ↔
      ((firstError o.beforeHandleMessage).isSome = true ∨
        ((a.world.withSched o.sched).poll.queues conn.outbound).hasRoom = false ∨
        Applicable a.world.doc update) := by
  obtain ⟨hstatus, happlied⟩ := Actor.clientFrame_answers hstep hconn hwritable hupdate
  rw [hstatus, happlied]
  cases firstError o.beforeHandleMessage with
  | some e => simp
  | none =>
    cases ((a.world.withSched o.sched).poll.queues conn.outbound).hasRoom with
    | false => simp
    | true => simp

/-! ## A client that joins and sends an update -/

/-- The actor of an empty document that a client has joined. -/
def clientJoined : Actor OneWriter.yrs :=
  OneWriter.after {} (OneWriter.start 8) [.command (.addConnection (OneWriter.conn 1) 0) {}]

def updateSent (update : Bytes) : Label :=
  .command (.clientFrame 1 (World.syncFrame OneWriter.yrs "doc" (.update update))) {}

/-- An edit is applied, and the client is told. -/
theorem Actor.status_tells_edit :
    clientJoined.Acknowledged (OneWriter.after {} clientJoined [updateSent (OneWriter.edit 0)]) 1
        "doc" ∧
      clientJoined.HasApplied (OneWriter.after {} clientJoined [updateSent (OneWriter.edit 0)]) 1
        (OneWriter.edit 0) := by
  have hstep : clientJoined.step {} (updateSent (OneWriter.edit 0))
      = some (OneWriter.after {} clientJoined [updateSent (OneWriter.edit 0)]) :=
    OneWriter.step_after (by decide +kernel)
  have hconn : clientJoined.world.connections.get? 1 = some (OneWriter.conn 1) := by
    decide +kernel
  have hupdate : carriedUpdate OneWriter.yrs (World.syncFrame OneWriter.yrs "doc"
      (.update (OneWriter.edit 0))) = some (OneWriter.edit 0) := by
    decide +kernel
  have htold := (Actor.clientFrame_answers hstep hconn rfl hupdate).1.mpr
    ⟨rfl, by decide +kernel⟩
  refine ⟨htold, (Actor.status_tells hstep hconn rfl hupdate).mpr (Or.inr (Or.inr ?_)) htold⟩
  exact ⟨_, OneWriter.decode_encode _, rfl⟩

/-- An empty update does not decode; the client is told it was applied. -/
theorem Actor.status_untrue :
    ¬ ∀ (cfg : Configuration) (ls : List Label) (a b : Actor OneWriter.yrs) (connId : Nat)
        (data : Bytes) (o : Ambient) (conn : ConnHandle) (update : Bytes),
      Actor.Run cfg (OneWriter.start cfg.outboundCapacity) ls a →
      a.step cfg (.command (.clientFrame connId data) o) = some b →
      a.world.connections.get? connId = some conn → conn.readOnly = false →
      carriedUpdate OneWriter.yrs data = some update →
      a.Acknowledged b connId conn.messageAddress → a.HasApplied b connId update := by
  intro hall
  generalize hjoined : OneWriter.after {} (OneWriter.start 2048)
    [.command (.addConnection (OneWriter.conn 1) 0) {}] = a
  have hrun : Actor.Run {} (OneWriter.start 2048)
      [.command (.addConnection (OneWriter.conn 1) 0) {}] a := by
    rw [← hjoined]
    exact OneWriter.run_after (by decide +kernel)
  have hstep : a.step {} (updateSent []) = some (OneWriter.after {} a [updateSent []]) :=
    OneWriter.step_after (by rw [← hjoined]; decide +kernel)
  have hconn : a.world.connections.get? 1 = some (OneWriter.conn 1) := by
    rw [← hjoined]
    decide +kernel
  have hupdate : carriedUpdate OneWriter.yrs (World.syncFrame OneWriter.yrs "doc" (.update []))
      = some [] := by
    decide +kernel
  obtain ⟨htold, happlied⟩ := Actor.clientFrame_answers hstep hconn rfl hupdate
  have hroom : ((a.world.withSched []).poll.queues 1).hasRoom = true := by
    rw [← hjoined]
    decide +kernel
  have hsaved := hall {} _ _ _ _ _ _ _ _ hrun hstep hconn rfl hupdate (htold.mpr ⟨rfl, hroom⟩)
  obtain ⟨_, u, hdecode, _⟩ := happlied.mp hsaved
  have hmalformed : OneWriter.yrs.decodeUpdate [] = none := by
    decide +kernel
  rw [hmalformed] at hdecode
  cases hdecode

end Hocuspocus
